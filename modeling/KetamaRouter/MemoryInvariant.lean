import KetamaRouter.Source.Decoder
import KetamaRouter.Source.Response

/-!
# Invariants of memory programs

An invariant that survives the writes a message buffer makes (to its pools, to
headers that name a buffer within reach, to objects, to character buffers)
survives every program of `message.c`, `decoder.c` and `response.c` that is
given such a buffer, wherever the program ends.
-/

namespace KetamaRouter

open FaultProgram

/-- The invariant `inv msgs` knows that the messages `msgs` name a buffer within
reach. -/
structure Stable (reach : BufId → Prop) (inv : List Ptr → Memory → Prop) :
    Prop where
  setPool : ∀ {msgs memory buf}, reach buf → inv msgs memory →
    ∀ kind pool, inv msgs (memory.setPool buf kind pool)
  setMsg : ∀ {msgs memory msg} {change : Msg → Msg},
    (∀ old buf, (change old).buf = some buf → reach buf ∨ old.buf = some buf) →
    inv msgs memory → inv msgs (memory.setMsg msg change)
  write : ∀ {msgs memory after}, inv msgs memory →
    after.pool = memory.pool → after.msg = memory.msg →
    after.text = memory.text → after.textBrk = memory.textBrk →
    inv msgs after
  malloc : ∀ {msgs memory}, inv msgs memory → ∀ contents,
    inv msgs { memory.setText memory.textBrk (some contents) with
      textBrk := memory.textBrk + 1 }
  free : ∀ {msgs memory}, inv msgs memory → ∀ block,
    inv msgs (memory.setText block none)
  knows : ∀ {msgs memory msg buf}, inv msgs memory → msg ∈ msgs →
    (memory.msg msg).buf = some buf → reach buf
  learns : ∀ {msgs memory msg buf}, inv msgs memory → reach buf →
    (memory.msg msg).buf = some buf → inv (msg :: msgs) memory
  forgets : ∀ {msgs memory msg}, inv (msg :: msgs) memory → inv msgs memory

/-- The invariant survives what is done to objects and buffers that are no
longer used. -/
structure Returnable (reach : BufId → Prop) (inv : Memory → Prop) : Prop where
  setPool : ∀ {memory buf}, reach buf → inv memory →
    ∀ kind pool, inv (memory.setPool buf kind pool)
  free : ∀ {memory}, inv memory → ∀ block, inv (memory.setText block none)

theorem Stable.returnable {reach : BufId → Prop}
    {inv : List Ptr → Memory → Prop} (stable : Stable reach inv)
    (msgs : List Ptr) : Returnable reach (inv msgs) where
  setPool := stable.setPool
  free := stable.free

variable {reach : BufId → Prop} {inv : List Ptr → Memory → Prop}
  {msgs : List Ptr} {msg : Ptr} {buf : BufId}

/-! ## Programs that read -/

section Reading

variable {inv : Memory → Prop}

theorem maintains_deref {α : Type} (pointer : Option α) :
    Maintains inv (deref pointer) := by
  cases pointer with
  | none => exact Maintains.throw _
  | some target => exact Maintains.pure target

theorem maintains_readText (block : Nat) :
    Maintains inv (readText block) := by
  unfold readText
  apply Maintains.get_bind
  intro memory holds
  split
  · exact Maintains.throw _
  · exact Maintains.pure _

theorem maintains_readCStr (pointer : CharPtr) :
    Maintains inv (readCStr pointer) := by
  unfold readCStr
  apply Maintains.bind (maintains_readText _)
  intro contents
  exact Maintains.pure _

theorem maintains_readStr (str : Ptr) :
    Maintains inv (readStr str) := by
  unfold readStr
  apply Maintains.get_bind
  intro memory holds
  apply Maintains.bind (maintains_deref _)
  intro data
  apply Maintains.bind (maintains_readText _)
  intro contents
  split
  · exact Maintains.throw _
  · exact Maintains.pure _

theorem maintains_msgGetStat (msg : Ptr) :
    Maintains inv (msgGetStat msg) := by
  unfold msgGetStat
  apply Maintains.get_bind
  intro memory holds
  exact Maintains.pure _

end Reading

/-! ## Returning objects and buffers -/

section Returning

variable {inv : Memory → Prop} (returnable : Returnable reach inv)

include returnable

theorem maintains_freeText (block : Option Nat) :
    Maintains inv (freeText block) := by
  cases block with
  | none => exact Maintains.pure _
  | some block =>
      unfold freeText
      apply Maintains.get_bind
      intro memory holds
      split
      · exact Maintains.throw _
      · exact Maintains.set (returnable.free holds block)

variable (within : reach buf)

include within

theorem maintains_poolBack (kind : PoolKind) (obj : Ptr) :
    Maintains inv (poolBack buf kind obj) := by
  unfold poolBack
  apply Maintains.bind
  · apply Maintains.focus
    intro memory holds
    exact returnable.setPool within holds kind _
  · intro returned
    apply Maintains.modify
    intro memory holds
    exact returnable.setPool within holds kind _

theorem maintains_bstrFree (str : Ptr) :
    Maintains inv (bstrFree buf str) := by
  unfold bstrFree
  apply Maintains.get_bind
  intro memory holds
  dsimp only
  split
  · apply Maintains.bind (maintains_freeText returnable _)
    intro freed
    exact maintains_poolBack returnable within .str str
  · exact maintains_poolBack returnable within .str str

theorem maintains_msgCleanParam (param : Ptr) :
    Maintains inv (msgCleanParam buf param) := by
  have finishes : ∀ data, Maintains inv (do
      freeText data
      poolBack buf .param param) := by
    intro data
    apply Maintains.bind (maintains_freeText returnable data)
    intro freed
    exact maintains_poolBack returnable within .param param
  unfold msgCleanParam
  apply Maintains.get_bind
  intro memory holds
  dsimp only
  split
  · apply Maintains.bind (maintains_deref _)
    intro str
    apply Maintains.bind (maintains_bstrFree returnable within str)
    intro freed
    exact finishes _
  · apply Maintains.bind (maintains_deref _)
    intro kv
    apply Maintains.get_bind
    intro memory holds
    apply Maintains.bind (maintains_deref _)
    intro key
    apply Maintains.bind (maintains_bstrFree returnable within key)
    intro freedKey
    apply Maintains.get_bind
    intro memory holds
    apply Maintains.bind (maintains_deref _)
    intro value
    apply Maintains.bind (maintains_bstrFree returnable within value)
    intro freedValue
    apply Maintains.bind (maintains_poolBack returnable within .paramKv kv)
    intro returned
    exact finishes _

theorem maintains_msgCleanParams (fuel : Nat) (param : Option Ptr) :
    Maintains inv (msgCleanParams buf fuel param) := by
  induction fuel generalizing param with
  | zero =>
      cases param with
      | none => exact Maintains.pure _
      | some param => exact Maintains.throw _
  | succ fuel induction =>
      cases param with
      | none => exact Maintains.pure _
      | some param =>
          unfold msgCleanParams
          apply Maintains.get_bind
          intro memory holds
          apply Maintains.bind (maintains_msgCleanParam returnable within param)
          intro cleaned
          exact induction _

theorem maintains_msgCleanChain (msg : Ptr) :
    Maintains inv (msgCleanChain buf msg) := by
  unfold msgCleanChain
  apply Maintains.get_bind
  intro memory holds
  split
  · exact maintains_msgCleanParams returnable within _ _
  · exact Maintains.pure _

theorem maintains_msgCleanCmd (cmd : Option Ptr) :
    Maintains inv (msgCleanCmd buf cmd) := by
  cases cmd with
  | none => exact Maintains.pure _
  | some cmd =>
      have finishes : ∀ data, Maintains inv (do
          freeText data
          poolBack buf .cmd cmd) := by
        intro data
        apply Maintains.bind (maintains_freeText returnable data)
        intro freed
        exact maintains_poolBack returnable within .cmd cmd
      unfold msgCleanCmd
      apply Maintains.get_bind
      intro memory holds
      dsimp only
      split
      · exact finishes _
      · apply Maintains.bind (maintains_bstrFree returnable within _)
        intro freed
        exact finishes _

end Returning

variable (stable : Stable reach inv)

include stable

/-! ## Memory operations -/

/-- Writes beside pools, headers and character buffers. -/
theorem maintains_modify {change : Memory → Memory}
    (pool : ∀ memory, (change memory).pool = memory.pool)
    (header : ∀ memory, (change memory).msg = memory.msg)
    (text : ∀ memory, (change memory).text = memory.text)
    (textBrk : ∀ memory, (change memory).textBrk = memory.textBrk) :
    Maintains (inv msgs) (modify change : MemProgram Unit) := by
  apply Maintains.modify
  intro memory holds
  exact stable.write holds (pool memory) (header memory) (text memory)
    (textBrk memory)

theorem maintains_setMsg {change : Msg → Msg}
    (keeps : ∀ old buf, (change old).buf = some buf →
      reach buf ∨ old.buf = some buf) :
    Maintains (inv msgs)
      (modify fun memory => memory.setMsg msg change : MemProgram Unit) := by
  apply Maintains.modify
  intro memory holds
  exact stable.setMsg keeps holds

theorem maintains_write (sock : Nat) (bytes : Bytes) :
    Maintains (inv msgs) (write sock bytes) := by
  unfold write
  apply Maintains.get_bind
  intro memory holds
  dsimp only
  apply Maintains.bind
  · exact Maintains.set (stable.write holds rfl rfl rfl rfl)
  · intro stored
    exact Maintains.pure _

/-- A message's own buffer is within reach. -/
theorem maintains_msgBuf {α : Type} {rest : BufId → MemProgram α}
    (member : msg ∈ msgs)
    (next : ∀ buf, reach buf → Maintains (inv msgs) (rest buf)) :
    Maintains (inv msgs) (msgBuf msg >>= rest) where
  ends {memory} holds := by
    cases header : (memory.msg msg).buf with
    | none =>
        have stops : msgBuf msg memory = .error .nullPointer memory := by
          unfold msgBuf
          rw [bind_run_ok (get_run memory), header]
          rfl
        rw [bind_run_error stops]
        exact holds
    | some buf =>
        have finds : msgBuf msg memory = .ok buf memory := by
          unfold msgBuf
          rw [bind_run_ok (get_run memory), header]
          rfl
        rw [bind_run_ok finds]
        exact (next buf (stable.knows holds member header)).ends holds

theorem maintains_msgSetCmd (other cmd : Ptr) :
    Maintains (inv msgs) (msgSetCmd other cmd) := by
  unfold msgSetCmd
  apply Maintains.bind
  · apply maintains_setMsg stable
    intro old buf found
    exact .inr found
  · intro written
    apply Maintains.get_bind
    intro memory holds
    dsimp only
    split
    · apply Maintains.bind
      · apply maintains_setMsg stable
        intro old buf found
        exact .inr found
      · intro waiting
        exact Maintains.pure _
    · apply Maintains.bind
      · apply maintains_setMsg stable
        intro old buf found
        exact .inr found
      · intro done
        exact Maintains.pure _

theorem maintains_msgPutParamlist (other param : Ptr) :
    Maintains (inv msgs) (msgPutParamlist other param) := by
  have counts : Maintains (inv msgs) (do
      modify fun memory => memory.setMsg other fun old =>
        { old with paramCount := old.paramCount + 1 }
      return param : MemProgram Ptr) := by
    apply Maintains.bind
    · apply maintains_setMsg stable
      intro old buf found
      exact .inr found
    · intro counted
      exact Maintains.pure param
  unfold msgPutParamlist
  apply Maintains.bind
  · apply maintains_modify stable <;>
      intro memory <;>
      rfl
  · intro unlinked
    apply Maintains.get_bind
    intro memory holds
    dsimp only
    split
    · apply Maintains.bind
      · apply maintains_setMsg stable
        intro old buf found
        exact .inr found
      · intro linked
        exact counts
    · apply Maintains.bind (maintains_deref _)
      intro last
      apply Maintains.bind
      · apply maintains_modify stable <;>
          intro memory <;>
          rfl
      · intro linked
        apply Maintains.bind
        · apply maintains_setMsg stable
          intro old buf found
          exact .inr found
        · intro moved
          exact counts

theorem maintains_msgAddParam (other param : Ptr) :
    Maintains (inv msgs) (msgAddParam other param) := by
  unfold msgAddParam
  apply Maintains.bind (maintains_msgPutParamlist stable other param)
  intro linked
  apply Maintains.get_bind
  intro memory holds
  apply Maintains.bind (maintains_deref _)
  intro cmd
  dsimp only
  split
  · apply Maintains.bind
    · apply maintains_setMsg stable
      intro old buf found
      exact .inr found
    · intro done
      apply Maintains.get_bind
      intro memory holds
      exact Maintains.pure _
  · apply Maintains.bind
    · apply maintains_setMsg stable
      intro old buf found
      exact .inr found
    · intro waiting
      apply Maintains.get_bind
      intro memory holds
      exact Maintains.pure _

/-! ## Objects of a pool -/

theorem Stable.zero {memory : Memory} (holds : inv msgs memory)
    (kind : PoolKind) (obj : Ptr) : inv msgs (memory.zero kind obj) := by
  cases kind with
  | msg =>
      unfold Memory.zero
      apply stable.setMsg _ holds
      intro old buf found
      cases found
  | str => exact stable.write holds rfl rfl rfl rfl
  | cmd => exact stable.write holds rfl rfl rfl rfl
  | param => exact stable.write holds rfl rfl rfl rfl
  | paramKv => exact stable.write holds rfl rfl rfl rfl

section Pooling

variable (within : reach buf)

include within

theorem maintains_poolGet (kind : PoolKind) :
    Maintains (inv msgs) (poolGet buf kind) := by
  unfold poolGet
  apply Maintains.get_bind
  intro memory holds
  apply Maintains.bind
  · apply Maintains.focus
    intro memory holds
    exact stable.setPool within holds kind _
  · intro obj
    apply Maintains.bind
    · apply Maintains.modify
      intro memory holds
      exact stable.setPool within holds kind _
    · intro taken
      simp only
      split
      · apply Maintains.bind
        · apply Maintains.modify
          intro memory holds
          exact stable.zero (stable.setPool within holds kind _) kind _
        · intro zeroed
          exact Maintains.pure obj
      · exact Maintains.pure obj

theorem maintains_bstrInit (data : CharPtr) (len : Nat) :
    Maintains (inv msgs) (bstrInit buf data len) := by
  apply Maintains.bind (maintains_poolGet stable within .str)
  intro str
  apply Maintains.bind
  · apply maintains_modify stable <;>
      intro memory <;>
      rfl
  · intro written
    exact Maintains.pure str

theorem maintains_msgInit : Maintains (inv msgs) (msgInit buf) := by
  apply Maintains.bind (maintains_poolGet stable within .msg)
  intro fresh
  apply Maintains.bind
  · apply maintains_setMsg stable
    intro old buf found
    rw [← Option.some.inj found]
    exact .inl within
  · intro written
    exact Maintains.pure fresh

/-- A new message may be used like those that were there. -/
theorem maintains_msgInit_bind {α : Type} {rest : Ptr → MemProgram α}
    (next : ∀ msg, Maintains (inv (msg :: msgs)) (rest msg)) :
    Maintains (inv msgs) (msgInit buf >>= rest) where
  ends {memory} holds := by
    have begins := (maintains_msgInit stable within).ends holds
    cases ran : msgInit buf memory with
    | error fault after =>
        rw [ran] at begins
        rw [bind_run_error ran]
        exact begins
    | ok fresh after =>
        rw [ran] at begins
        rw [bind_run_ok ran]
        have header : (after.msg fresh).buf = some buf := by
          obtain ⟨obj, middle, -, ended⟩ := of_bind_ok ran
          cases ended
          simp [Memory.setMsg]
        have learned := stable.learns begins within header
        exact stable.forgets ((next fresh).ends learned)

theorem maintains_msgInitCmd (cmd : CharPtr) (len : Nat) (count : UInt16)
    (data : Nat) :
    Maintains (inv msgs) (msgInitCmd buf cmd len count data) := by
  unfold msgInitCmd
  apply Maintains.bind (maintains_poolGet stable within .cmd)
  intro ncmd
  apply Maintains.bind (maintains_bstrInit stable within cmd len)
  intro name
  apply Maintains.bind
  · apply maintains_modify stable <;>
      intro memory <;>
      rfl
  · intro written
    exact Maintains.pure ncmd

theorem maintains_msgInitParamStr (param : CharPtr) (len data : Nat) :
    Maintains (inv msgs) (msgInitParamStr buf param len data) := by
  unfold msgInitParamStr
  apply Maintains.bind (maintains_poolGet stable within .param)
  intro nparam
  apply Maintains.bind (maintains_bstrInit stable within param len)
  intro str
  apply Maintains.bind
  · apply maintains_modify stable <;>
      intro memory <;>
      rfl
  · intro written
    exact Maintains.pure nparam

theorem maintains_msgInitParamKv (key : CharPtr) (keyLen : Nat)
    (value : CharPtr) (valueLen data : Nat) :
    Maintains (inv msgs)
      (msgInitParamKv buf key keyLen value valueLen data) := by
  unfold msgInitParamKv
  apply Maintains.bind (maintains_poolGet stable within .param)
  intro nparam
  apply Maintains.bind (maintains_poolGet stable within .paramKv)
  intro kv
  apply Maintains.bind (maintains_bstrInit stable within key keyLen)
  intro keyStr
  apply Maintains.bind (maintains_bstrInit stable within value valueLen)
  intro valueStr
  apply Maintains.bind
  · apply maintains_modify stable <;>
      intro memory <;>
      rfl
  · intro paired
    apply Maintains.bind
    · apply maintains_modify stable <;>
      intro memory <;>
      rfl
    · intro written
      exact Maintains.pure nparam

end Pooling

/-! ## The decoder -/

theorem maintains_decoderCommand (member : msg ∈ msgs) (row : Nat) :
    Maintains (inv msgs) (decoderCommand msg row) := by
  unfold decoderCommand
  apply Maintains.bind (maintains_readCStr _)
  intro text
  split
  · exact Maintains.pure _
  · dsimp only
    apply Maintains.bind (maintains_readCStr _)
    intro cText
    split
    · exact Maintains.pure _
    · apply maintains_msgBuf stable member
      intro buf within
      split
      · apply Maintains.bind (maintains_msgInitCmd stable within _ _ _ _)
        intro cmd
        apply Maintains.bind (maintains_msgSetCmd stable _ _)
        intro written
        exact Maintains.pure _
      · apply Maintains.bind (maintains_readCStr _)
        intro sText
        split
        · exact Maintains.pure _
        · split
          · exact Maintains.pure _
          · apply Maintains.bind (maintains_msgInitCmd stable within _ _ _ _)
            intro cmd
            apply Maintains.bind (maintains_msgSetCmd stable _ _)
            intro written
            exact Maintains.pure _

theorem maintains_decoderParam (member : msg ∈ msgs) (row : Nat) :
    Maintains (inv msgs) (decoderParam msg row) := by
  unfold decoderParam
  apply Maintains.bind (maintains_readCStr _)
  intro text
  apply maintains_msgBuf stable member
  intro buf within
  split
  · split
    · dsimp only
      apply Maintains.bind (maintains_readCStr _)
      intro sText
      apply Maintains.bind (maintains_msgInitParamStr stable within _ _ _)
      intro param
      apply Maintains.bind (maintains_msgAddParam stable _ _)
      intro added
      exact Maintains.pure _
    · split
      · dsimp only
        apply Maintains.bind (maintains_readCStr _)
        intro kText
        split
        · exact Maintains.pure _
        · apply Maintains.bind (maintains_readCStr _)
          intro vText
          apply Maintains.bind (maintains_msgInitParamKv stable within _ _ _ _ _)
          intro param
          apply Maintains.bind (maintains_msgAddParam stable _ _)
          intro added
          exact Maintains.pure _
      · exact Maintains.pure _
  · exact Maintains.pure _

theorem maintains_decoderRun (member : msg ∈ msgs) (row : Nat) :
    Maintains (inv msgs) (decoderRun msg row) := by
  unfold decoderRun
  apply Maintains.bind (maintains_msgGetStat msg)
  intro stat
  cases stat with
  | none => exact maintains_decoderCommand stable member row
  | dataMore => exact maintains_decoderParam stable member row
  | done => exact Maintains.pure _

/-! ## Writing a message out -/

theorem maintains_respMsgParams (sock fuel : Nat) (param : Option Ptr) :
    Maintains (inv msgs) (respMsgParams sock fuel param) := by
  induction fuel generalizing param with
  | zero =>
      cases param with
      | none => exact Maintains.pure _
      | some param => exact Maintains.throw _
  | succ fuel induction =>
      cases param with
      | none => exact Maintains.pure _
      | some param =>
          unfold respMsgParams
          apply Maintains.get_bind
          intro memory holds
          apply Maintains.bind (maintains_deref _)
          intro data
          apply Maintains.bind (maintains_readCStr _)
          intro text
          apply Maintains.bind (maintains_write stable _ _)
          intro res
          dsimp only
          split
          · exact Maintains.pure _
          · exact induction _

theorem maintains_respMsg (member : msg ∈ msgs) (sock : Nat) :
    Maintains (inv msgs) (respMsg sock msg) := by
  unfold respMsg
  apply Maintains.get_bind
  intro memory holds
  split
  · exact Maintains.pure _
  · apply Maintains.bind (maintains_deref _)
    intro cmd
    apply Maintains.bind (maintains_deref _)
    intro data
    apply Maintains.bind (maintains_readCStr _)
    intro text
    apply Maintains.bind (maintains_write stable _ _)
    intro res
    dsimp only
    split
    · exact Maintains.pure _
    · apply maintains_msgBuf stable member
      intro buf within
      exact maintains_respMsgParams stable _ _ _

/-! ## Character buffers -/

theorem maintains_mallocText (contents : Bytes) :
    Maintains (inv msgs) (mallocText contents) := by
  unfold mallocText
  apply Maintains.get_bind
  intro memory holds
  apply Maintains.bind
  · exact Maintains.set (stable.malloc holds contents)
  · intro stored
    exact Maintains.pure _

theorem maintains_callocSprintf (size : Nat) (text : Bytes) :
    Maintains (inv msgs) (callocSprintf size text) := by
  unfold callocSprintf
  split
  · exact Maintains.throw _
  · split
    · exact Maintains.throw _
    · exact maintains_mallocText stable text

/-! ## Cleaning -/

theorem maintains_msgClean (member : msg ∈ msgs) :
    Maintains (inv msgs) (msgClean msg) := by
  unfold msgClean
  apply maintains_msgBuf stable member
  intro buf within
  have returnable := stable.returnable msgs
  apply Maintains.bind (maintains_msgCleanChain returnable within msg)
  intro chain
  apply Maintains.get_bind
  intro memory holds
  apply Maintains.bind (maintains_msgCleanCmd returnable within _)
  intro command
  apply maintains_setMsg stable
  intro old buf found
  exact .inr found

theorem maintains_msgFree (member : msg ∈ msgs) :
    Maintains (inv msgs) (msgFree (some msg)) := by
  unfold msgFree
  apply maintains_msgBuf stable member
  intro buf within
  apply Maintains.bind (maintains_msgClean stable member)
  intro cleaned
  exact maintains_poolBack (stable.returnable msgs) within .msg msg

/-! ## Replies -/

/-- What every reply ends with. -/
theorem maintains_send (member : msg ∈ msgs) (sock : Nat) :
    Maintains (inv msgs) (do
      let res ← respMsg sock msg
      msgFree (some msg)
      return res) := by
  apply Maintains.bind (maintains_respMsg stable member sock)
  intro res
  apply Maintains.bind (maintains_msgFree stable member)
  intro freed
  exact Maintains.pure res

variable (within : reach buf)

include within

theorem maintains_msgGenCmd (cmd : Bytes) (len : Nat) (count : UInt16) :
    Maintains (inv msgs) (msgGenCmd buf cmd len count) := by
  unfold msgGenCmd
  apply Maintains.bind (maintains_callocSprintf stable _ _)
  intro data
  exact maintains_msgInitCmd stable within _ _ _ _

theorem maintains_msgGenParamStr (str : Bytes) (len : Nat) :
    Maintains (inv msgs) (msgGenParamStr buf str len) := by
  unfold msgGenParamStr
  apply Maintains.bind (maintains_callocSprintf stable _ _)
  intro data
  exact maintains_msgInitParamStr stable within _ _ _

theorem maintains_respError (sock : Nat) (errno error : Bytes) :
    Maintains (inv msgs) (respError buf sock errno error) := by
  unfold respError
  apply maintains_msgInit_bind stable within
  intro msg
  apply Maintains.bind (maintains_msgGenCmd stable within _ _ _)
  intro cmd
  apply Maintains.bind (maintains_msgSetCmd stable _ _)
  intro named
  apply Maintains.bind (maintains_msgGenParamStr stable within _ _)
  intro first
  apply Maintains.bind (maintains_msgAddParam stable _ _)
  intro addedFirst
  apply Maintains.bind (maintains_msgGenParamStr stable within _ _)
  intro second
  apply Maintains.bind (maintains_msgAddParam stable _ _)
  intro addedSecond
  exact maintains_send stable List.mem_cons_self sock

theorem maintains_respNode (sock : Nat) (node : Bytes) :
    Maintains (inv msgs) (respNode buf sock node) := by
  unfold respNode
  apply maintains_msgInit_bind stable within
  intro msg
  apply Maintains.bind (maintains_msgGenCmd stable within _ _ _)
  intro cmd
  apply Maintains.bind (maintains_msgSetCmd stable _ _)
  intro named
  apply Maintains.bind (maintains_msgGenParamStr stable within _ _)
  intro param
  apply Maintains.bind (maintains_msgAddParam stable _ _)
  intro added
  exact maintains_send stable List.mem_cons_self sock

theorem maintains_respPong (sock : Nat) :
    Maintains (inv msgs) (respPong buf sock) := by
  unfold respPong
  apply maintains_msgInit_bind stable within
  intro msg
  apply Maintains.bind (maintains_msgGenCmd stable within _ _ _)
  intro cmd
  apply Maintains.bind (maintains_msgSetCmd stable _ _)
  intro named
  exact maintains_send stable List.mem_cons_self sock

end KetamaRouter
