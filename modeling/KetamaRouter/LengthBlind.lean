import KetamaRouter.Library.Simulation
import KetamaRouter.TextBounds

/-!
# Replies do not read recorded lengths

Building, sending and freeing a message writes the `len` of its strings and
never reads it.  A text whose precision is cut therefore makes a reply that
behaves like the reply to the text that is left of it.
-/

namespace KetamaRouter

open FaultProgram

variable {memory twin : Memory} {buf : BufId}

/-- The same memory with other recorded lengths. -/
def Memory.relen (memory : Memory) (len : Ptr → Nat) : Memory :=
  { memory with str := fun str => { memory.str str with len := len str } }

/-- Memories that differ in recorded lengths only. -/
def Relen (memory twin : Memory) : Prop :=
  ∃ len, memory = twin.relen len

theorem Relen.refl (memory : Memory) : Relen memory memory :=
  ⟨fun str => (memory.str str).len, rfl⟩

/-- A step that leaves the strings alone. -/
theorem simulates_modify {change : Memory → Memory}
    (same : ∀ memory len,
      change (memory.relen len) = (change memory).relen len) :
    Simulates Relen (modify change : MemProgram PUnit) (modify change) := by
  apply Simulates.modify
  intro memory twin alike
  obtain ⟨len, rfl⟩ := alike
  exact ⟨len, same twin len⟩

section

variable (memory) (len : Ptr → Nat)

@[simp] theorem relen_msg : (memory.relen len).msg = memory.msg :=
  rfl

@[simp] theorem relen_cmd : (memory.relen len).cmd = memory.cmd :=
  rfl

@[simp] theorem relen_param : (memory.relen len).param = memory.param :=
  rfl

@[simp] theorem relen_paramKv : (memory.relen len).paramKv = memory.paramKv :=
  rfl

@[simp] theorem relen_pool : (memory.relen len).pool = memory.pool :=
  rfl

@[simp] theorem relen_text : (memory.relen len).text = memory.text :=
  rfl

@[simp] theorem relen_textBrk : (memory.relen len).textBrk = memory.textBrk :=
  rfl

@[simp] theorem relen_socket : (memory.relen len).socket = memory.socket :=
  rfl

@[simp] theorem relen_str (str : Ptr) :
    (memory.relen len).str str = { memory.str str with len := len str } :=
  rfl

end

/-- A string that is initialised with another length. -/
theorem relen_setStr (len : Ptr → Nat) (str : Ptr) (data : CharPtr)
    (first second : Nat) :
    (memory.relen len).setStr str (fun old =>
        { old with data := some data, len := first, type := .none }) =
      (memory.setStr str fun old =>
        { old with data := some data, len := second, type := .none }).relen
          (Function.update len str first) := by
  unfold Memory.relen Memory.setStr
  simp only [Memory.mk.injEq, true_and, and_true]
  funext other
  by_cases same : other = str
  · rw [same]
    simp
  · simp [same]

/-! ## Pools and buffers -/

theorem simulates_deref {α : Type} (pointer : Option α) :
    Simulates Relen (deref pointer : MemProgram α) (deref pointer) := by
  cases pointer with
  | none => exact Simulates.throw _
  | some target => exact Simulates.pure target

theorem zero_relen (kind : PoolKind) (obj : Ptr) (len : Ptr → Nat) :
    ∃ other, (memory.relen len).zero kind obj =
      (memory.zero kind obj).relen other := by
  cases kind with
  | str =>
      apply Exists.intro (Function.update len obj 0)
      unfold Memory.zero Memory.relen Memory.setStr
      simp only [Memory.mk.injEq, true_and, and_true]
      funext other
      by_cases same : other = obj
      · rw [same]
        simp
      · simp [same]
  | _ => exact ⟨len, rfl⟩

theorem simulates_poolGet (kind : PoolKind) :
    Simulates Relen (poolGet buf kind) (poolGet buf kind) := by
  unfold poolGet
  apply Simulates.get_bind
  intro memory twin alike
  obtain ⟨len, rfl⟩ := alike
  apply Simulates.bind
  · apply Simulates.focus
    · intro state other alike
      obtain ⟨len, rfl⟩ := alike
      rfl
    · intro state other part alike
      obtain ⟨len, rfl⟩ := alike
      exact ⟨len, rfl⟩
  intro obj
  apply Simulates.bind
  · exact simulates_modify fun _ _ => rfl
  intro _
  apply Simulates.ite
  · apply Simulates.bind
    · apply Simulates.modify
      intro state other alike
      obtain ⟨len, rfl⟩ := alike
      exact @zero_relen (other.setPool buf kind
        { other.pool buf kind with
          objBrk := (other.pool buf kind).objBrk + 1 })
        kind ⟨buf, (twin.pool buf kind).objBrk⟩ len
    · exact fun _ => Simulates.pure obj
  · exact Simulates.pure obj

theorem simulates_poolBack (kind : PoolKind) (obj : Ptr) :
    Simulates Relen (poolBack buf kind obj) (poolBack buf kind obj) := by
  unfold poolBack
  apply Simulates.bind
  · apply Simulates.focus
    · intro state other alike
      obtain ⟨len, rfl⟩ := alike
      rfl
    · intro state other part alike
      obtain ⟨len, rfl⟩ := alike
      exact ⟨len, rfl⟩
  · exact fun _ => simulates_modify fun _ _ => rfl

/-- The length given to `bstr_init` is only recorded. -/
theorem simulates_bstrInit (data : CharPtr) (first second : Nat) :
    Simulates Relen (bstrInit buf data first) (bstrInit buf data second) := by
  apply Simulates.bind (simulates_poolGet .str)
  intro str
  apply Simulates.bind
  · apply Simulates.modify
    intro state other alike
    obtain ⟨len, rfl⟩ := alike
    exact ⟨_, relen_setStr len str data first second⟩
  · exact fun _ => Simulates.pure str

/-- The same text in a buffer of another size. -/
theorem simulates_callocSprintf {size room : Nat} {text : Bytes}
    (enough : text.length < size → text.length < room) :
    Simulates Relen (callocSprintf size text) (callocSprintf room text) where
  follow {state twin _ _} alike ran := by
    obtain ⟨len, rfl⟩ := alike
    unfold callocSprintf at ran ⊢
    split at ran
    · cases ran
    · rename_i short
      split at ran
      · cases ran
      · rw [if_neg short, if_neg (by omega)]
        cases ran
        exact ⟨_, ⟨len, rfl⟩, rfl⟩

theorem simulates_readCStr (pointer : CharPtr) :
    Simulates Relen (readCStr pointer) (readCStr pointer) := by
  apply Simulates.bind
  · apply Simulates.get_bind
    intro state other alike
    obtain ⟨len, rfl⟩ := alike
    rw [relen_text]
    cases other.text pointer.block with
    | none => exact Simulates.throw _
    | some contents => exact Simulates.pure contents
  · exact fun contents => Simulates.pure _

theorem simulates_write (sock : Nat) (bytes : Bytes) :
    Simulates Relen (write sock bytes) (write sock bytes) where
  follow alike ran := by
    obtain ⟨len, rfl⟩ := alike
    cases ran
    exact ⟨_, ⟨len, rfl⟩, rfl⟩

theorem simulates_freeText (block : Option Nat) :
    Simulates Relen (freeText block) (freeText block) := by
  cases block with
  | none => exact Simulates.pure _
  | some block =>
      apply Simulates.mk
      intro state other value final alike ran
      obtain ⟨len, rfl⟩ := alike
      simp only [freeText] at ran ⊢
      rw [bind_run_ok (get_run _)] at ran ⊢
      simp only [relen_text] at ran ⊢
      cases found : other.text block with
      | none =>
          simp only [found] at ran
          cases ran
      | some contents =>
          simp only [found] at ran ⊢
          cases ran
          exact ⟨_, ⟨len, rfl⟩, rfl⟩

/-! ## Building -/

theorem simulates_msgInit : Simulates Relen (msgInit buf) (msgInit buf) := by
  apply Simulates.bind (simulates_poolGet .msg)
  intro msg
  apply Simulates.bind
  · exact simulates_modify fun _ _ => rfl
  · exact fun _ => Simulates.pure msg

/-- What is left of a text whose precision is cut. -/
def cutText (text : Bytes) : Bytes :=
  formatStr (precision text.length) text

theorem printed_length (text : Bytes) :
    (Parameter.str text).printed.length = (cutText text).length + 3 := by
  unfold Parameter.printed
  rw [List.length_append, List.length_append]
  change 1 + (cutText text).length + 2 = _
  omega

theorem cutText_noNul {text : Bytes} (noNul : 0 ∉ text) :
    0 ∉ cutText text := by
  unfold cutText formatStr
  rw [cStr_eq_self noNul]
  split
  · exact noNul
  · exact fun member => noNul (List.mem_of_mem_take member)

theorem cutText_cutText {text : Bytes} (noNul : 0 ∉ text)
    (short : (cutText text).length ≤ intMax) :
    cutText (cutText text) = cutText text :=
  formatStr_precision (cutText_noNul noNul) short

theorem simulates_msgGenCmd (name : Bytes) (cmdLen : Nat) (count : UInt16) :
    Simulates Relen (msgGenCmd buf name cmdLen count)
      (msgGenCmd buf name cmdLen count) := by
  apply Simulates.bind (simulates_callocSprintf id)
  intro data
  apply Simulates.bind (simulates_poolGet .cmd)
  intro ncmd
  apply Simulates.bind (simulates_bstrInit _ _ _)
  intro str
  apply Simulates.bind
  · exact simulates_modify fun _ _ => rfl
  · exact fun _ => Simulates.pure ncmd

theorem simulates_msgSetCmd (msg cmd : Ptr) :
    Simulates Relen (msgSetCmd msg cmd) (msgSetCmd msg cmd) := by
  apply Simulates.bind
  · exact simulates_modify fun _ _ => rfl
  intro _
  apply Simulates.get_bind
  intro state other alike
  obtain ⟨len, rfl⟩ := alike
  apply Simulates.ite
  · apply Simulates.bind
    · exact simulates_modify fun _ _ => rfl
    · exact fun _ => Simulates.pure cmd
  · apply Simulates.bind
    · exact simulates_modify fun _ _ => rfl
    · exact fun _ => Simulates.pure cmd

theorem strRoom (text : Bytes) :
    ([msgStrHeader] ++ text ++ msgCrlf).length < text.length + 4 := by
  simp [msgCrlf]

theorem simulates_msgGenParamStr {text : Bytes} (noNul : 0 ∉ text)
    (short : (cutText text).length ≤ intMax) :
    Simulates Relen (msgGenParam buf (.str text))
      (msgGenParam buf (.str (cutText text))) := by
  have again := cutText_cutText noNul short
  unfold cutText at again
  change Simulates Relen (msgGenParamStr buf text text.length)
    (msgGenParamStr buf (cutText text) (cutText text).length)
  unfold msgGenParamStr
  simp only [cutText, again]
  apply Simulates.bind
  · exact simulates_callocSprintf fun _ => strRoom _
  intro data
  apply Simulates.bind (simulates_poolGet .param)
  intro nparam
  apply Simulates.bind (simulates_bstrInit _ _ _)
  intro str
  apply Simulates.bind
  · exact simulates_modify fun _ _ => rfl
  · exact fun _ => Simulates.pure nparam

theorem simulates_msgPutParamlist (msg param : Ptr) :
    Simulates Relen (msgPutParamlist msg param) (msgPutParamlist msg param) := by
  apply Simulates.bind
  · exact simulates_modify fun _ _ => rfl
  intro _
  apply Simulates.get_bind
  intro state other alike
  obtain ⟨len, rfl⟩ := alike
  simp only [relen_msg]
  cases (other.msg msg).paramFirst with
  | none =>
      apply Simulates.bind
      · exact simulates_modify fun _ _ => rfl
      intro _
      apply Simulates.bind
      · exact simulates_modify fun _ _ => rfl
      · exact fun _ => Simulates.pure param
  | some first =>
      apply Simulates.bind (simulates_deref _)
      intro last
      apply Simulates.bind
      · exact simulates_modify fun _ _ => rfl
      intro _
      apply Simulates.bind
      · exact simulates_modify fun _ _ => rfl
      intro _
      apply Simulates.bind
      · exact simulates_modify fun _ _ => rfl
      · exact fun _ => Simulates.pure param

theorem simulates_msgAddParam (msg param : Ptr) :
    Simulates Relen (msgAddParam msg param) (msgAddParam msg param) := by
  apply Simulates.bind (simulates_msgPutParamlist msg param)
  intro _
  apply Simulates.get_bind
  intro state other alike
  obtain ⟨len, rfl⟩ := alike
  simp only [relen_msg, relen_cmd]
  apply Simulates.bind (simulates_deref _)
  intro cmd
  have count : ∀ state twin : Memory, Relen state twin →
      Simulates Relen (pure (state.msg msg).paramCount : MemProgram UInt16)
        (pure (twin.msg msg).paramCount) := by
    intro state twin alike
    obtain ⟨len, rfl⟩ := alike
    exact Simulates.pure _
  apply Simulates.ite
  · apply Simulates.bind
    · exact simulates_modify fun _ _ => rfl
    · exact fun _ => Simulates.get_bind count
  · apply Simulates.bind
    · exact simulates_modify fun _ _ => rfl
    · exact fun _ => Simulates.get_bind count

/-! ## Sending and freeing -/

theorem simulates_respMsgParams (sock fuel : Nat) (start : Option Ptr) :
    Simulates Relen (respMsgParams sock fuel start)
      (respMsgParams sock fuel start) := by
  induction fuel generalizing start with
  | zero =>
      cases start with
      | none => exact Simulates.pure _
      | some param => exact Simulates.throw _
  | succ fuel induction =>
      cases start with
      | none => exact Simulates.pure _
      | some param =>
          apply Simulates.get_bind
          intro state other alike
          obtain ⟨len, rfl⟩ := alike
          simp only [relen_param]
          apply Simulates.bind (simulates_deref _)
          intro data
          apply Simulates.bind (simulates_readCStr _)
          intro text
          apply Simulates.bind (simulates_write sock text)
          intro res
          apply Simulates.ite
          · exact Simulates.pure _
          · exact induction _

theorem simulates_msgBuf (msg : Ptr) :
    Simulates Relen (msgBuf msg) (msgBuf msg) := by
  apply Simulates.get_bind
  intro state other alike
  obtain ⟨len, rfl⟩ := alike
  exact simulates_deref _

theorem simulates_respMsg (sock : Nat) (msg : Ptr) :
    Simulates Relen (respMsg sock msg) (respMsg sock msg) := by
  apply Simulates.get_bind
  intro state other alike
  obtain ⟨len, rfl⟩ := alike
  simp only [relen_msg, relen_cmd]
  apply Simulates.ite
  · exact Simulates.pure _
  apply Simulates.bind (simulates_deref _)
  intro cmd
  apply Simulates.bind (simulates_deref _)
  intro data
  apply Simulates.bind (simulates_readCStr _)
  intro text
  apply Simulates.bind (simulates_write sock text)
  intro res
  apply Simulates.ite
  · exact Simulates.pure _
  apply Simulates.bind (simulates_msgBuf msg)
  intro buf
  exact simulates_respMsgParams _ _ _

theorem simulates_bstrFree (str : Ptr) :
    Simulates Relen (bstrFree buf str) (bstrFree buf str) := by
  apply Simulates.get_bind
  intro state other alike
  obtain ⟨len, rfl⟩ := alike
  simp only [relen_str]
  cases (other.str str).type with
  | alloc =>
      apply Simulates.bind (simulates_freeText _)
      exact fun _ => simulates_poolBack .str str
  | none => exact simulates_poolBack .str str

theorem simulates_msgCleanParam (param : Ptr) :
    Simulates Relen (msgCleanParam buf param) (msgCleanParam buf param) := by
  have finish : ∀ data, Simulates Relen
      (do freeText data; poolBack buf .param param)
      (do freeText data; poolBack buf .param param) := by
    intro data
    apply Simulates.bind (simulates_freeText data)
    exact fun _ => simulates_poolBack .param param
  apply Simulates.get_bind
  intro state other alike
  obtain ⟨len, rfl⟩ := alike
  simp only [relen_param]
  cases (other.param param).type with
  | str =>
      apply Simulates.bind (simulates_deref _)
      intro str
      apply Simulates.bind (simulates_bstrFree str)
      exact fun _ => finish _
  | kv =>
      apply Simulates.bind (simulates_deref _)
      intro kv
      apply Simulates.get_bind
      intro second twin alike
      obtain ⟨len, rfl⟩ := alike
      apply Simulates.bind (simulates_deref _)
      intro key
      apply Simulates.bind (simulates_bstrFree key)
      intro _
      apply Simulates.get_bind
      intro third twin alike
      obtain ⟨len, rfl⟩ := alike
      apply Simulates.bind (simulates_deref _)
      intro value
      apply Simulates.bind (simulates_bstrFree value)
      intro _
      apply Simulates.bind (simulates_poolBack .paramKv kv)
      exact fun _ => finish _

theorem simulates_msgCleanParams (fuel : Nat) (start : Option Ptr) :
    Simulates Relen (msgCleanParams buf fuel start)
      (msgCleanParams buf fuel start) := by
  induction fuel generalizing start with
  | zero =>
      cases start with
      | none => exact Simulates.pure _
      | some param => exact Simulates.throw _
  | succ fuel induction =>
      cases start with
      | none => exact Simulates.pure _
      | some param =>
          apply Simulates.get_bind
          intro state other alike
          obtain ⟨len, rfl⟩ := alike
          apply Simulates.bind (simulates_msgCleanParam param)
          exact fun _ => induction _

theorem simulates_msgCleanCmd (cmd : Option Ptr) :
    Simulates Relen (msgCleanCmd buf cmd) (msgCleanCmd buf cmd) := by
  cases cmd with
  | none => exact Simulates.pure _
  | some cmd =>
      apply Simulates.get_bind
      intro state other alike
      obtain ⟨len, rfl⟩ := alike
      simp only [relen_cmd]
      cases (other.cmd cmd).name with
      | none =>
          apply Simulates.bind (simulates_freeText _)
          exact fun _ => simulates_poolBack .cmd cmd
      | some name =>
          apply Simulates.bind (simulates_bstrFree name)
          intro _
          apply Simulates.bind (simulates_freeText _)
          exact fun _ => simulates_poolBack .cmd cmd

theorem simulates_msgFree (msg : Option Ptr) :
    Simulates Relen (msgFree msg) (msgFree msg) := by
  cases msg with
  | none => exact Simulates.pure _
  | some msg =>
      apply Simulates.bind (simulates_msgBuf msg)
      intro buf
      apply Simulates.bind
      · apply Simulates.bind (simulates_msgBuf msg)
        intro buf
        apply Simulates.bind
        · apply Simulates.get_bind
          intro state other alike
          obtain ⟨len, rfl⟩ := alike
          apply Simulates.ite
          · exact simulates_msgCleanParams _ _
          · exact Simulates.pure _
        intro _
        apply Simulates.get_bind
        intro state other alike
        obtain ⟨len, rfl⟩ := alike
        apply Simulates.bind (simulates_msgCleanCmd _)
        exact fun _ => simulates_modify fun _ _ => rfl
      · exact fun _ => simulates_poolBack .msg msg

/-! ## Replies -/

theorem simulates_msgAddParams (msg : Ptr) {texts : List Bytes}
    (noNul : ∀ text ∈ texts, 0 ∉ text)
    (short : ∀ text ∈ texts, (cutText text).length ≤ intMax) :
    Simulates Relen (msgAddParams buf msg (texts.map .str))
      (msgAddParams buf msg (texts.map fun text => .str (cutText text))) := by
  induction texts with
  | nil => exact Simulates.pure _
  | cons text texts induction =>
      apply Simulates.bind (simulates_msgGenParamStr
        (noNul text List.mem_cons_self) (short text List.mem_cons_self))
      intro param
      apply Simulates.bind (simulates_msgAddParam msg param)
      exact fun _ => induction
        (fun other member => noNul other (List.mem_cons_of_mem text member))
        (fun other member => short other (List.mem_cons_of_mem text member))

/-- What is left of the texts of a reply. -/
def cutTexts (texts : List Bytes) : List Parameter :=
  texts.map fun text => .str (cutText text)

/-- A reply behaves like the reply to what is left of its texts. -/
theorem simulates_respSend (sock : Nat) (name : Bytes) {texts : List Bytes}
    (noNul : ∀ text ∈ texts, 0 ∉ text)
    (short : ∀ text ∈ texts, (cutText text).length ≤ intMax) :
    Simulates Relen (respSend buf sock ⟨name, texts.map .str⟩)
      (respSend buf sock ⟨name, cutTexts texts⟩) := by
  unfold respSend msgAssemble cutTexts
  simp only [List.length_map]
  apply Simulates.bind
  · apply Simulates.bind simulates_msgInit
    intro msg
    apply Simulates.bind (simulates_msgGenCmd _ _ _)
    intro cmd
    apply Simulates.bind (simulates_msgSetCmd msg cmd)
    intro _
    apply Simulates.bind (simulates_msgAddParams msg noNul short)
    exact fun _ => Simulates.pure msg
  intro msg
  apply Simulates.bind (simulates_respMsg sock msg)
  intro res
  apply Simulates.bind (simulates_msgFree _)
  exact fun _ => Simulates.pure res

end KetamaRouter
