import KetamaRouter.System

/-!
# The buffers of the encoder

The generators of `message.c` allocate a line from the lengths of its parts and
print into it.  `callocSprintf` faults if the text and its NUL do not fit, so a
generator that returns has not written past its buffer.
-/

namespace KetamaRouter

open FaultProgram

variable {memory : Memory} {owned : Multiset Cell} {buf : BufId}

/-- The buffer `block` was allocated with `size` bytes; the text in it fits with
its NUL, and the object `str` denotes the part `text` of it. -/
structure PrintedView (memory : Memory) (block size : Nat) (str : Ptr)
    (line text : Bytes) : Prop where
  contents : memory.text block = some line
  fits : line.length + 1 ≤ size
  view : StrAt memory block line str text

/-- The longest count, of five digits, fills the buffer. -/
theorem commandText_fits (name : Bytes) (count : UInt16) :
    (commandText name count.toNat ++ crlf).length + 1 ≤ name.length + 10 := by
  have body := commandText_length name count
  rw [List.length_append]
  change _ + 2 + 1 ≤ _
  omega

example (name : Bytes) :
    (commandText name 65535 ++ crlf).length + 1 = name.length + 10 := by
  have digits : (formatDecimal 65535).length = 5 := by decide
  simp [commandText, crlf, digits]

theorem msgGenCmd_fits {name : Bytes} (holds : Holds memory owned)
    (noNul : 0 ∉ name) (short : name.length + 16 < 2 ^ 31) (count : UInt16) :
    Yields (msgGenCmd buf name name.length count) memory fun obj after =>
      ∃ block str,
        after.cmd obj =
            { name := some str, paramCount := count, data := some block } ∧
          PrintedView after block (name.length + 10) str
            (commandText name count.toNat ++ crlf) name := by
  have fits := commandText_fits name count
  have printable : (commandText name count.toNat ++ crlf).length ≤ intMax := by
    unfold intMax
    omega
  apply (msgGenCmd_spec holds noNul printable).mono
  intro obj after generated
  obtain ⟨cmd, same, nameText, counted, line, cmdAt, -, -⟩ := generated
  have fields := cmdAt.obj
  have view := cmdAt.name
  have contents := cmdAt.text
  rw [same, counted] at fields
  rw [nameText, line] at view
  rw [line] at contents
  exact ⟨cmd.block, cmd.name, fields, contents, fits, view⟩

theorem msgGenParamStr_fits {text : Bytes} (holds : Holds memory owned)
    (noNul : 0 ∉ text) (short : text.length + 16 < 2 ^ 31) :
    Yields (msgGenParamStr buf text text.length) memory fun obj after =>
      ∃ block str,
        ParamFields (after.param obj) .str (some str) none block ∧
          PrintedView after block (text.length + 4) str
            (36 :: (text ++ crlf)) text := by
  have length : (Parameter.text (.str text) ++ crlf).length =
      text.length + 3 := by
    simp [Parameter.text, crlf]
  have printable : (Parameter.text (.str text) ++ crlf).length ≤ intMax := by
    unfold intMax
    omega
  apply (@msgGenParam_spec _ _ buf (.str text) holds noNul printable).mono
  intro obj after generated
  obtain ⟨shape, same, parameter, line, paramAt, -, -⟩ := generated
  have body := paramAt.body
  have contents := paramAt.text
  rw [line] at contents
  cases known : shape.body with
  | str str said =>
      rw [known] at body parameter
      cases parameter
      obtain ⟨-, fields, view⟩ := body
      rw [same] at fields
      rw [line] at view
      refine ⟨shape.block, str, fields, contents, ?_, view⟩
      change (Parameter.text (.str text) ++ crlf).length + 1 ≤ _
      omega
  | kv kv key value keyText valueText =>
      rw [known] at parameter
      cases parameter

theorem msgGenParamKv_fits {key value : Bytes} (holds : Holds memory owned)
    (noNul : 0 ∉ key ∧ 0 ∉ value)
    (short : key.length + value.length + 16 < 2 ^ 31) :
    Yields (msgGenParamKv buf key key.length value value.length) memory
      fun obj after => ∃ block kv keyStr valueStr,
        ParamFields (after.param obj) .kv none (some kv) block ∧
          after.paramKv kv = { key := some keyStr, value := some valueStr } ∧
          PrintedView after block (key.length + value.length + 5) keyStr
            (37 :: (key ++ 61 :: (value ++ crlf))) key ∧
          PrintedView after block (key.length + value.length + 5) valueStr
            (37 :: (key ++ 61 :: (value ++ crlf))) value := by
  have printed : Parameter.text (.keyValue key value) ++ crlf =
      37 :: (key ++ 61 :: (value ++ crlf)) := by
    simp [Parameter.text]
  have length : (Parameter.text (.keyValue key value) ++ crlf).length =
      key.length + value.length + 4 := by
    simp [Parameter.text, crlf]
    omega
  have printable : (Parameter.text (.keyValue key value) ++ crlf).length ≤
      intMax := by
    unfold intMax
    omega
  apply (@msgGenParam_spec _ _ buf (.keyValue key value) holds noNul
    printable).mono
  intro obj after generated
  obtain ⟨shape, same, parameter, line, paramAt, -, -⟩ := generated
  rw [printed] at line length
  have body := paramAt.body
  have contents := paramAt.text
  rw [line] at contents
  have fits : (37 :: (key ++ 61 :: (value ++ crlf))).length + 1 ≤
      key.length + value.length + 5 := by omega
  cases known : shape.body with
  | str str said =>
      rw [known] at parameter
      cases parameter
  | kv kv keyStr valueStr keyText valueText =>
      rw [known] at body parameter
      cases parameter
      obtain ⟨-, fields, pair, keyView, valueView⟩ := body
      rw [same] at fields
      rw [line] at keyView valueView
      exact ⟨shape.block, kv, keyStr, valueStr, fields, pair,
        ⟨contents, fits, keyView⟩, ⟨contents, fits, valueView⟩⟩

/-- No generator prints past its buffer, whatever it is given, and the views it
records denote what it was given. -/
theorem encoders_fit (holds : Holds memory owned) (buf : BufId) :
    (∀ name (count : UInt16), 0 ∉ name → name.length + 16 < 2 ^ 31 →
      Yields (msgGenCmd buf name name.length count) memory fun obj after =>
        ∃ block str,
          after.cmd obj =
              { name := some str, paramCount := count, data := some block } ∧
            PrintedView after block (name.length + 10) str
              (commandText name count.toNat ++ crlf) name) ∧
    (∀ text, 0 ∉ text → text.length + 16 < 2 ^ 31 →
      Yields (msgGenParamStr buf text text.length) memory fun obj after =>
        ∃ block str,
          ParamFields (after.param obj) .str (some str) none block ∧
            PrintedView after block (text.length + 4) str
              (36 :: (text ++ crlf)) text) ∧
    ∀ key value, 0 ∉ key → 0 ∉ value →
      key.length + value.length + 16 < 2 ^ 31 →
      Yields (msgGenParamKv buf key key.length value value.length) memory
        fun obj after => ∃ block kv keyStr valueStr,
          ParamFields (after.param obj) .kv none (some kv) block ∧
            after.paramKv kv = { key := some keyStr, value := some valueStr } ∧
            PrintedView after block (key.length + value.length + 5) keyStr
              (37 :: (key ++ 61 :: (value ++ crlf))) key ∧
            PrintedView after block (key.length + value.length + 5) valueStr
              (37 :: (key ++ 61 :: (value ++ crlf))) value := by
  constructor
  · intro name count noNul short
    exact msgGenCmd_fits holds noNul short count
  constructor
  · intro text noNul short
    exact msgGenParamStr_fits holds noNul short
  · intro key value noKey noValue short
    exact msgGenParamKv_fits holds ⟨noKey, noValue⟩ short

/-- In a new router, a command with the longest count. -/
theorem encoders_fit_longest :
    Yields (msgGenCmd .server (ascii "NODE") 4 65535) initialMemory
      fun obj after => ∃ block str,
        after.cmd obj =
            { name := some str, paramCount := 65535, data := some block } ∧
          PrintedView after block 14 str (ascii "+NODE 65535" ++ crlf)
            (ascii "NODE") := by
  have generated := (encoders_fit initialMemory_holds .server).1 (ascii "NODE")
    65535 (by decide) (by decide)
  have line : commandText (ascii "NODE") (65535 : UInt16).toNat =
      ascii "+NODE 65535" := by decide
  rw [line] at generated
  exact generated

end KetamaRouter
