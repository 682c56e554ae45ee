import KetamaRouter.Protocol.Decimal
import KetamaRouter.Protocol.Reader

/-!
# The text of a message

The lines that spell a request, and that the reference reader turns them back
into it.
-/

namespace KetamaRouter

open Delimited

def crlf : Bytes := [13, 10]

/-- The command line of a request, without its terminator. -/
def commandText (name : Bytes) (count : Nat) : Bytes :=
  if count = 0 then 43 :: name
  else 43 :: (name ++ 32 :: formatDecimal count)

def Parameter.text : Parameter → Bytes
  | .str text => 36 :: text
  | .keyValue key value => 37 :: (key ++ 61 :: value)

/-- The lines of a request, without their terminators. -/
def Request.texts (request : Request) : List Bytes :=
  commandText request.name request.params.length ::
    request.params.map Parameter.text

/-- The lines of a request as they are sent. -/
def Request.pieces (request : Request) : List Bytes :=
  request.texts.map (· ++ crlf)

def Request.wire (request : Request) : Bytes :=
  request.pieces.flatten

/-- No line of a request is spoiled by what it contains: the name can be told
from the count, and a key from its value. -/
def Parameter.Readable : Parameter → Prop
  | .str _ => True
  | .keyValue key _ => 61 ∉ key

instance : DecidablePred Parameter.Readable
  | .str _ => inferInstanceAs (Decidable True)
  | .keyValue key _ => inferInstanceAs (Decidable (61 ∉ key))

/-- A parameter without the byte `char`. -/
def Parameter.Avoids (char : UInt8) : Parameter → Prop
  | .str text => char ∉ text
  | .keyValue key value => char ∉ key ∧ char ∉ value

instance (char : UInt8) : DecidablePred (Parameter.Avoids char)
  | .str text => inferInstanceAs (Decidable (char ∉ text))
  | .keyValue key value =>
      inferInstanceAs (Decidable (char ∉ key ∧ char ∉ value))

theorem not_mem_formatDecimal {char : UInt8} (notDigit : isDigit char = false)
    (number : Nat) : char ∉ formatDecimal number := by
  intro member
  rw [isDigit_of_mem_formatDecimal member] at notDigit
  cases notDigit

theorem not_mem_commandText {char : UInt8} {name : Bytes}
    (notDigit : isDigit char = false) (notHeader : char ≠ 43)
    (notSpace : char ≠ 32) (avoids : char ∉ name) (count : Nat) :
    char ∉ commandText name count := by
  unfold commandText
  split
  · simp [notHeader, avoids]
  · simp [notHeader, notSpace, avoids, not_mem_formatDecimal notDigit]

theorem Parameter.not_mem_text {char : UInt8} {param : Parameter}
    (avoids : param.Avoids char) (notStr : char ≠ 36) (notKv : char ≠ 37)
    (notSept : char ≠ 61) : char ∉ param.text := by
  cases param with
  | str text => exact List.not_mem_cons_of_ne_of_not_mem notStr avoids
  | keyValue key value =>
      obtain ⟨keyAvoids, valueAvoids⟩ := avoids
      simp [Parameter.text, notKv, notSept, keyAvoids, valueAvoids]

/-- The reader takes the name and the count off a command line. -/
theorem commandLine_commandText {name : Bytes} {count : Nat}
    (nonempty : name ≠ []) (noSpace : 32 ∉ name) (small : count < 65536) :
    commandLine (commandText name count) = some (name, count) := by
  unfold commandText
  split
  · rename_i zero
    simp [commandLine, cutAt_none noSpace, nonempty, zero]
  · rename_i positive
    have value : atoi (formatDecimal count) = count :=
      atoi_formatDecimal (by omega)
    have converted : (UInt32.ofInt (count : ℤ)).toNat = count := by
      have cast := toNat_ofInt count
      omega
    have nonzero : UInt32.ofInt (count : ℤ) ≠ 0 := by
      intro zero
      rw [zero, UInt32.toNat_zero] at converted
      exact positive converted.symm
    simp [commandLine, cutAt_append _ noSpace, value, converted, nonzero, small,
      formatDecimal_ne_nil]

theorem paramLine_text {param : Parameter} (readable : param.Readable) :
    paramLine param.text = some param := by
  cases param with
  | str text => rfl
  | keyValue key value =>
      have cut := cutAt_append value readable
      simp [paramLine, Parameter.text, cut]

/-- An open reader fed the rest of its parameters dispatches the request. -/
theorem Reader.readAll_params {name : Bytes} {count : Nat}
    {collected params : List Parameter}
    (readable : ∀ param ∈ params, param.Readable) (nonempty : params ≠ [])
    (total : collected.length + params.length = count) :
    (Reader.opened name count collected).readAll (params.map Parameter.text) =
      (.idle, [.dispatch ⟨name, collected ++ params⟩]) := by
  induction params generalizing collected with
  | nil => exact absurd rfl nonempty
  | cons param params induction =>
      have head := paramLine_text (readable param List.mem_cons_self)
      rw [List.length_cons] at total
      cases params with
      | nil =>
          simp only [List.length_nil, Nat.zero_add] at total
          simp [Reader.readAll, Reader.read, head, total]
      | cons next params =>
          have more : collected.length + 1 ≠ count := by
            rw [List.length_cons] at total
            omega
          have rest := @induction (collected ++ [param])
            (fun other member => readable other (List.mem_cons_of_mem _ member))
            (by simp) (by simp; simp at total; omega)
          simp only [List.map_cons] at rest
          rw [List.map_cons, Reader.readAll]
          simp only [Reader.read, head, more, if_false, List.map_cons, rest]
          simp

/-- The reader gives back the request that its lines spell. -/
theorem Reader.readAll_texts {request : Request}
    (nonempty : request.name ≠ []) (noSpace : 32 ∉ request.name)
    (small : request.params.length < 65536)
    (readable : ∀ param ∈ request.params, param.Readable) :
    Reader.idle.readAll request.texts = (.idle, [.dispatch request]) := by
  obtain ⟨name, params⟩ := request
  have head := commandLine_commandText nonempty noSpace small
  unfold Request.texts
  cases params with
  | nil =>
      simp only [List.length_nil] at head
      simp [Reader.readAll, Reader.read, head]
  | cons param params =>
      have rest := @Reader.readAll_params name (param :: params).length []
        (param :: params) readable (by simp) (by simp)
      have open_ : (param :: params).length ≠ 0 := by simp
      rw [Reader.readAll]
      simp only [Reader.read, head, open_, if_false, rest]
      rfl

/-! ## Well-formed requests -/

/-- A request that its lines spell: nothing in it can be mistaken for the end
of a line, of a string, of the name or of a key. -/
structure Request.WellFormed (request : Request) : Prop where
  nonempty : request.name ≠ []
  noSpace : 32 ∉ request.name
  noLf : 10 ∉ request.name ∧ ∀ param ∈ request.params, param.Avoids 10
  noNul : 0 ∉ request.name ∧ ∀ param ∈ request.params, param.Avoids 0
  readable : ∀ param ∈ request.params, param.Readable
  count : request.params.length < 65536

theorem Request.not_mem_texts {request : Request} {char : UInt8}
    {text : Bytes} (notDigit : isDigit char = false)
    (special : char ∉ [43, 32, 36, 37, 61])
    (name : char ∉ request.name)
    (params : ∀ param ∈ request.params, param.Avoids char)
    (member : text ∈ request.texts) : char ∉ text := by
  simp only [List.mem_cons, List.not_mem_nil, or_false, not_or] at special
  obtain ⟨header, space, str, kv, sept⟩ := special
  rcases List.mem_cons.mp member with rfl | inParams
  · exact not_mem_commandText notDigit header space name _
  · obtain ⟨param, found, rfl⟩ := List.mem_map.mp inParams
    exact Parameter.not_mem_text (params param found) str kv sept

namespace Request.WellFormed

variable {request : Request} {text : Bytes}

theorem texts_noLf (wellFormed : request.WellFormed)
    (member : text ∈ request.texts) : 10 ∉ text :=
  Request.not_mem_texts rfl (by decide) wellFormed.noLf.1 wellFormed.noLf.2
    member

theorem texts_noNul (wellFormed : request.WellFormed)
    (member : text ∈ request.texts) : 0 ∉ text :=
  Request.not_mem_texts rfl (by decide) wellFormed.noNul.1 wellFormed.noNul.2
    member

theorem readAll_texts (wellFormed : request.WellFormed) :
    Reader.idle.readAll request.texts = (.idle, [.dispatch request]) :=
  Reader.readAll_texts wellFormed.nonempty wellFormed.noSpace wellFormed.count
    wellFormed.readable

end Request.WellFormed

/-- The reader gives back a sequence of requests. -/
theorem Reader.readAll_requests {requests : List Request}
    (wellFormed : ∀ request ∈ requests, request.WellFormed) :
    Reader.idle.readAll (requests.flatMap Request.texts) =
      (.idle, requests.map .dispatch) := by
  induction requests with
  | nil => rfl
  | cons request requests induction =>
      have first := (wellFormed request List.mem_cons_self).readAll_texts
      have later := induction fun other member =>
        wellFormed other (List.mem_cons_of_mem request member)
      rw [List.flatMap_cons, readAll_append, first, later]
      rfl

end KetamaRouter
