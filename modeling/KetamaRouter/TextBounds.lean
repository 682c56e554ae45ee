import KetamaRouter.LineProcessing

/-!
# Texts and `printf`

A buffer that `sprintf` filled holds what its conversions printed, and no more
bytes than an `int` can count.  So an assembled message has short buffers, and
whatever is read from it is short as well.
-/

namespace KetamaRouter

open FaultProgram

variable {memory : Memory} {buf : BufId}

/-! ## Short buffers -/

/-- No buffer is longer than `printf` can count. -/
def TextsBounded (memory : Memory) : Prop :=
  ∀ block text, memory.text block = some text → text.length ≤ intMax

theorem preserves_modify {change : Memory → Memory}
    (same : ∀ memory, (change memory).text = memory.text) :
    Preserves TextsBounded (modify change : MemProgram PUnit) := by
  apply Preserves.modify
  intro memory bounded block text found
  rw [same] at found
  exact bounded block text found

theorem preserves_poolGet (kind : PoolKind) :
    Preserves TextsBounded (poolGet buf kind) := by
  unfold poolGet
  apply Preserves.get_bind
  intro memory
  apply Preserves.bind
  · apply Preserves.focus
    exact fun _ _ bounded => bounded
  intro obj
  apply Preserves.bind
  · exact preserves_modify fun _ => rfl
  intro _
  simp only
  split
  · apply Preserves.bind
    · apply preserves_modify
      exact fun _ => Memory.zero_text _
    · exact fun _ => Preserves.pure obj
  · exact Preserves.pure obj

theorem preserves_bstrInit (data : CharPtr) (len : Nat) :
    Preserves TextsBounded (bstrInit buf data len) := by
  apply Preserves.bind (preserves_poolGet .str)
  intro str
  apply Preserves.bind
  · exact preserves_modify fun _ => rfl
  · exact fun _ => Preserves.pure str

theorem preserves_callocSprintf (size : Nat) (text : Bytes) :
    Preserves TextsBounded (callocSprintf size text) := by
  unfold callocSprintf
  split
  · exact Preserves.throw _
  · rename_i short
    split
    · exact Preserves.throw _
    · apply Preserves.mk
      intro memory block after bounded ran
      cases ran
      intro other contents found
      by_cases same : other = memory.textBrk
      · rw [same] at found
        simp [Memory.setText] at found
        rw [← found]
        exact Nat.not_lt.mp short
      · simp [Memory.setText, same] at found
        exact bounded other contents found

theorem preserves_msgInit : Preserves TextsBounded (msgInit buf) := by
  apply Preserves.bind (preserves_poolGet .msg)
  intro msg
  apply Preserves.bind
  · exact preserves_modify fun _ => rfl
  · exact fun _ => Preserves.pure msg

theorem preserves_msgGenCmd (cmd : Bytes) (cmdLen : Nat) (count : UInt16) :
    Preserves TextsBounded (msgGenCmd buf cmd cmdLen count) := by
  apply Preserves.bind (preserves_callocSprintf _ _)
  intro data
  apply Preserves.bind (preserves_poolGet .cmd)
  intro ncmd
  apply Preserves.bind (preserves_bstrInit _ _)
  intro name
  apply Preserves.bind
  · exact preserves_modify fun _ => rfl
  · exact fun _ => Preserves.pure ncmd

theorem preserves_msgSetCmd (msg cmd : Ptr) :
    Preserves TextsBounded (msgSetCmd msg cmd) := by
  apply Preserves.bind
  · exact preserves_modify fun _ => rfl
  intro _
  apply Preserves.get_bind
  intro memory
  simp only
  split
  · apply Preserves.bind
    · exact preserves_modify fun _ => rfl
    · exact fun _ => Preserves.pure cmd
  · apply Preserves.bind
    · exact preserves_modify fun _ => rfl
    · exact fun _ => Preserves.pure cmd

theorem preserves_msgGenParam (param : Parameter) :
    Preserves TextsBounded (msgGenParam buf param) := by
  cases param with
  | str text =>
      apply Preserves.bind (preserves_callocSprintf _ _)
      intro data
      apply Preserves.bind (preserves_poolGet .param)
      intro nparam
      apply Preserves.bind (preserves_bstrInit _ _)
      intro str
      apply Preserves.bind
      · exact preserves_modify fun _ => rfl
      · exact fun _ => Preserves.pure nparam
  | keyValue key value =>
      apply Preserves.bind (preserves_callocSprintf _ _)
      intro data
      apply Preserves.bind (preserves_poolGet .param)
      intro nparam
      apply Preserves.bind (preserves_poolGet .paramKv)
      intro kv
      apply Preserves.bind (preserves_bstrInit _ _)
      intro keyStr
      apply Preserves.bind (preserves_bstrInit _ _)
      intro valueStr
      apply Preserves.bind
      · exact preserves_modify fun _ => rfl
      intro _
      apply Preserves.bind
      · exact preserves_modify fun _ => rfl
      · exact fun _ => Preserves.pure nparam

theorem preserves_deref {α : Type} (pointer : Option α) :
    Preserves TextsBounded (deref pointer : MemProgram α) := by
  cases pointer with
  | none => exact Preserves.throw _
  | some target => exact Preserves.pure target

theorem preserves_msgPutParamlist (msg param : Ptr) :
    Preserves TextsBounded (msgPutParamlist msg param) := by
  apply Preserves.bind
  · exact preserves_modify fun _ => rfl
  intro _
  apply Preserves.get_bind
  intro memory
  simp only
  split
  · apply Preserves.bind
    · exact preserves_modify fun _ => rfl
    intro _
    apply Preserves.bind
    · exact preserves_modify fun _ => rfl
    · exact fun _ => Preserves.pure param
  · apply Preserves.bind (preserves_deref _)
    intro last
    apply Preserves.bind
    · exact preserves_modify fun _ => rfl
    intro _
    apply Preserves.bind
    · exact preserves_modify fun _ => rfl
    intro _
    apply Preserves.bind
    · exact preserves_modify fun _ => rfl
    · exact fun _ => Preserves.pure param

theorem preserves_msgAddParam (msg param : Ptr) :
    Preserves TextsBounded (msgAddParam msg param) := by
  apply Preserves.bind (preserves_msgPutParamlist msg param)
  intro _
  apply Preserves.get_bind
  intro memory
  apply Preserves.bind (preserves_deref _)
  intro cmd
  simp only
  split
  · apply Preserves.bind
    · exact preserves_modify fun _ => rfl
    intro _
    apply Preserves.get_bind
    exact fun memory => Preserves.pure _
  · apply Preserves.bind
    · exact preserves_modify fun _ => rfl
    intro _
    apply Preserves.get_bind
    exact fun memory => Preserves.pure _

theorem preserves_msgAddParams (msg : Ptr) (params : List Parameter) :
    Preserves TextsBounded (msgAddParams buf msg params) := by
  induction params with
  | nil => exact Preserves.pure _
  | cons param params induction =>
      apply Preserves.bind (preserves_msgGenParam param)
      intro obj
      apply Preserves.bind (preserves_msgAddParam msg obj)
      exact fun _ => induction

theorem preserves_msgAssemble (request : Request) :
    Preserves TextsBounded (msgAssemble buf request) := by
  apply Preserves.bind preserves_msgInit
  intro msg
  apply Preserves.bind (preserves_msgGenCmd _ _ _)
  intro cmd
  apply Preserves.bind (preserves_msgSetCmd msg cmd)
  intro _
  apply Preserves.bind (preserves_msgAddParams msg request.params)
  exact fun _ => Preserves.pure msg

/-! ## What was printed -/

theorem callocSprintf_fits {size block : Nat} {text : Bytes} {after : Memory}
    (ran : callocSprintf size text memory = .ok block after) :
    text.length ≤ intMax := by
  unfold callocSprintf at ran
  split at ran
  · cases ran
  · rename_i short
    exact Nat.not_lt.mp short

/-- What the generator of a parameter prints. -/
def Parameter.printed : Parameter → Bytes
  | .str text =>
      [msgStrHeader] ++ formatStr (precision text.length) text ++ msgCrlf
  | .keyValue key value =>
      [msgKvHeader] ++ formatStr (precision key.length) key ++ [msgKvSept] ++
        formatStr (precision value.length) value ++ msgCrlf

theorem msgGenParam_fits {param : Parameter} {obj : Ptr} {after : Memory}
    (ran : msgGenParam buf param memory = .ok obj after) :
    param.printed.length ≤ intMax := by
  cases param with
  | str text =>
      obtain ⟨data, middle, printed, -⟩ := of_bind_ok ran
      exact callocSprintf_fits printed
  | keyValue key value =>
      obtain ⟨data, middle, printed, -⟩ := of_bind_ok ran
      exact callocSprintf_fits printed

theorem msgAddParams_fits {msg : Ptr} {params : List Parameter}
    {after : Memory} (ran : msgAddParams buf msg params memory = .ok () after) :
    ∀ param ∈ params, param.printed.length ≤ intMax := by
  induction params generalizing memory with
  | nil => simp
  | cons param params induction =>
      obtain ⟨obj, second, ranFirst, ran⟩ := of_bind_ok ran
      obtain ⟨count, third, -, ranRest⟩ := of_bind_ok ran
      intro other member
      cases List.mem_cons.mp member with
      | inl same =>
          rw [same]
          exact msgGenParam_fits ranFirst
      | inr later => exact induction ranRest other later

/-- What `msg_gen_cmd` prints. -/
def Request.printedCmd (request : Request) : Bytes :=
  let name := formatStr (precision request.name.length) request.name
  let count := UInt16.ofNat request.params.length
  if count = 0 then [msgCmdHeader] ++ name ++ msgCrlf
  else [msgCmdHeader] ++ name ++ [32] ++ formatInt count.toNat ++ msgCrlf

theorem msgAssemble_fits {request : Request} {msg : Ptr} {after : Memory}
    (ran : msgAssemble buf request memory = .ok msg after) :
    request.printedCmd.length ≤ intMax ∧
      ∀ param ∈ request.params, param.printed.length ≤ intMax := by
  obtain ⟨obj, second, -, ran⟩ := of_bind_ok ran
  obtain ⟨cmd, third, ranCmd, ran⟩ := of_bind_ok ran
  obtain ⟨_, fourth, -, ran⟩ := of_bind_ok ran
  obtain ⟨_, fifth, ranParams, -⟩ := of_bind_ok ran
  obtain ⟨data, middle, printed, -⟩ := of_bind_ok ranCmd
  exact ⟨callocSprintf_fits printed, msgAddParams_fits ranParams⟩

/-! ## What is read back -/

section

variable {α β : Type} {value : β} {after : Memory}

theorem of_deref_bind_ok {pointer : Option α} {rest : α → MemProgram β}
    (ran : (deref pointer >>= rest) memory = .ok value after) :
    ∃ target, rest target memory = .ok value after := by
  cases pointer with
  | none => cases ran
  | some target => exact ⟨target, ran⟩

theorem of_readText_bind_ok {block : Nat} {rest : Bytes → MemProgram β}
    (ran : (readText block >>= rest) memory = .ok value after) :
    ∃ contents, memory.text block = some contents ∧
      rest contents memory = .ok value after := by
  obtain ⟨contents, middle, read, next⟩ := of_bind_ok ran
  unfold readText at read
  rw [bind_run_ok (get_run memory)] at read
  cases found : memory.text block with
  | none =>
      simp only [found] at read
      cases read
  | some other =>
      simp only [found] at read
      cases read
      exact ⟨contents, rfl, next⟩

/-- A text that is read lies in a buffer. -/
theorem of_readStr_bind_ok {str : Ptr} {rest : Bytes → MemProgram β}
    (bounded : TextsBounded memory)
    (ran : (readStr str >>= rest) memory = .ok value after) :
    ∃ text, text.length ≤ intMax ∧ rest text memory = .ok value after := by
  obtain ⟨text, middle, read, next⟩ := of_bind_ok ran
  unfold readStr at read
  rw [bind_run_ok (get_run memory)] at read
  obtain ⟨data, readData⟩ := of_deref_bind_ok read
  obtain ⟨contents, found, readContents⟩ := of_readText_bind_ok readData
  have short := bounded data.block contents found
  split at readContents
  · cases readContents
  · cases readContents
    refine ⟨_, ?_, next⟩
    apply Nat.le_trans _ short
    rw [List.length_take, List.length_drop]
    omega

/-- The texts of a parameter are no longer than this. -/
def Parameter.Within (bound : Nat) : Parameter → Prop
  | .str text => text.length ≤ bound
  | .keyValue key value => key.length ≤ bound ∧ value.length ≤ bound

theorem of_readParam_bind_ok {param : Ptr} {rest : Parameter → MemProgram β}
    (bounded : TextsBounded memory)
    (ran : (readParam param >>= rest) memory = .ok value after) :
    ∃ parameter : Parameter, parameter.Within intMax ∧
      rest parameter memory = .ok value after := by
  obtain ⟨parameter, middle, read, next⟩ := of_bind_ok ran
  unfold readParam at read
  rw [bind_run_ok (get_run memory)] at read
  cases kind : (memory.param param).type with
  | str =>
      simp only [kind] at read
      obtain ⟨str, readStr⟩ := of_deref_bind_ok read
      obtain ⟨text, short, done⟩ := of_readStr_bind_ok bounded readStr
      cases done
      exact ⟨.str text, short, next⟩
  | kv =>
      simp only [kind] at read
      obtain ⟨kv, readKv⟩ := of_deref_bind_ok read
      obtain ⟨keyStr, readKey⟩ := of_deref_bind_ok readKv
      obtain ⟨key, keyShort, readRest⟩ := of_readStr_bind_ok bounded readKey
      obtain ⟨valueStr, readValue⟩ := of_deref_bind_ok readRest
      obtain ⟨text, textShort, done⟩ := of_readStr_bind_ok bounded readValue
      cases done
      exact ⟨.keyValue key text, ⟨keyShort, textShort⟩, next⟩

end

theorem readParams_ok {fuel : Nat} {start : Option Ptr}
    {parameters : List Parameter} {after : Memory}
    (bounded : TextsBounded memory)
    (ran : readParams fuel start memory = .ok parameters after) :
    ∀ parameter ∈ parameters, parameter.Within intMax := by
  induction fuel generalizing start parameters after with
  | zero =>
      cases start with
      | none =>
          cases ran
          simp
      | some param => cases ran
  | succ fuel induction =>
      cases start with
      | none =>
          cases ran
          simp
      | some param =>
          unfold readParams at ran
          obtain ⟨parameter, short, next⟩ := of_readParam_bind_ok bounded ran
          rw [bind_run_ok (get_run memory)] at next
          obtain ⟨rest, middle, ranRest, done⟩ := of_bind_ok next
          cases done
          intro other member
          cases List.mem_cons.mp member with
          | inl same =>
              rw [same]
              exact short
          | inr later => exact induction ranRest other later

/-- Whatever is read as a request has texts that lie in buffers. -/
theorem readRequest_ok {msg : Ptr} {request : Request} {after : Memory}
    (bounded : TextsBounded memory)
    (ran : readRequest msg memory = .ok request after) :
    request.name.length ≤ intMax ∧
      ∀ param ∈ request.params, param.Within intMax := by
  unfold readRequest at ran
  rw [bind_run_ok (get_run memory)] at ran
  obtain ⟨cmd, readCmd⟩ := of_deref_bind_ok ran
  obtain ⟨str, readName⟩ := of_deref_bind_ok readCmd
  obtain ⟨name, short, next⟩ := of_readStr_bind_ok bounded readName
  unfold msgBuf at next
  rw [bind_assoc, bind_run_ok (get_run memory)] at next
  obtain ⟨home, readRest⟩ := of_deref_bind_ok next
  obtain ⟨params, last, ranParams, done⟩ := of_bind_ok readRest
  cases done
  exact ⟨short, readParams_ok bounded ranParams⟩

end KetamaRouter
