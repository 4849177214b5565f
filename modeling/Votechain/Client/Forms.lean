import Votechain.Pallet.Calls
import Votechain.Client.TxButton

/-!
# The forms

The forms of the pages put texts and selected ids into the fields of a `TxButton`, and the node
decodes what the button sends. An id that is selected comes back as it is; a text may come back
shorter, or as no bytes at all.
-/

open Frame

namespace Votechain.Client
open TxButton

variable {Hash AccountId Number : Type}

/-- How the client prints hashes and reads them back, and how it encodes a text as bytes. A printed
hash is a text without blanks around it. -/
structure Codec (Hash : Type) where
  print : Hash → Text
  read : Text → Option Hash
  bytes : Text → List UInt8
  read_print : ∀ h, read (print h) = some h
  trim_print : ∀ h, trim (print h) = print h
  print_ne_nil : ∀ h, print h ≠ []

/-- What the client shows and reads: hashes and texts, numbers, and the text for bytes. -/
structure Display (Hash Number : Type) extends Codec Hash where
  numbers : Numbers Number
  toHuman : List UInt8 → String

namespace Codec

variable (codec : Codec Hash)

/-- The field of a select for an id. Nothing selected is the empty text. -/
def idParam : Option Hash → InputParam Number
  | some h => .plain (.text (codec.print h))
  | none => .plain (.text [])

/-- Bytes that are sent as `null` are empty. -/
def bytesOf : Param Number → List UInt8
  | .text value => codec.bytes value
  | _ => []

/-- The call that the node decodes. -/
def toCall : String → List (Param Number) → Option (Call Hash)
  | "createElection", [description] => some (.createElection (codec.bytesOf description))
  | "closeElection", [.text electionId] => (codec.read electionId).map .closeElection
  | "createCandidate", [candidateName, .text electionId] =>
    (codec.read electionId).map (.createCandidate (codec.bytesOf candidateName))
  | "createVote", [.text candidateId, .text electionId] =>
    (codec.read candidateId).bind fun candidateId =>
      (codec.read electionId).map (.createVote candidateId)
  | _, _ => none

theorem print_inj {h h' : Hash} (heq : codec.print h = codec.print h') : h = h' := by
  have hread := codec.read_print h
  rw [heq, codec.read_print] at hread
  exact (Option.some.inj hread).symm

end Codec

/-! ## Fields that are declared to be there -/

section
variable {numbers : Numbers Number} {inputParams : List (InputParam Number)}
  {params : List (Param Number)} {codec : Codec Hash} {i : Nat}

/-- The fields of a form that declares nothing about them. -/
def declared (inputParams : List (InputParam Number)) : List ParamField :=
  inputParams.map fun _ => {}

theorem getElem?_declared {inputParam : InputParam Number}
    (hi : inputParams[i]? = some inputParam) : (declared inputParams)[i]? = some {} := by
  rw [declared, List.getElem?_map, hi]
  rfl

/-- Nothing is converted then. -/
theorem convertible_declared : Convertible numbers (declared inputParams) inputParams := by
  intro x hx value _ hconv
  have hfield : x.1 ∈ declared inputParams := (List.mem_zipIdx' hx).2 ▸ List.getElem_mem _
  obtain ⟨_, _, hx⟩ := List.mem_map.mp hfield
  rw [← hx] at hconv
  exact absurd hconv (by decide)

theorem convert_declared {text : Text} :
    convert numbers ({} : ParamField).type (.text text) = some (.text text) := by
  have hvec : isVecType "string" = false := by decide
  have hnum : isNumType "string" = false := by decide
  simp [convert, hvec, hnum]

/-- A printed id is sent as it is. -/
theorem getElem?_idParam {h : Hash} (hi : inputParams[i]? = some (codec.idParam (some h)))
    (hparams : transformParams numbers (declared inputParams) inputParams true = some params) :
    params[i]? = some (.text (codec.print h)) := by
  have htext : textAt inputParams i = some (codec.print h) := by
    rw [textAt, hi]
    rfl
  rw [getElem?_transformParams_true (getElem?_declared hi) hparams, paramAt,
    paramVal_of_textAt htext, codec.trim_print, if_neg (codec.print_ne_nil h), Option.bind_some,
    convert_declared, Option.getD_some]

/-- Something is selected where all fields are filled. -/
theorem exists_of_filled {e : Option Hash}
    (hfilled : allParamsFilled (declared inputParams) inputParams = true)
    (hi : inputParams[i]? = some (codec.idParam e)) : ∃ h, e = some h := by
  cases e with
  | some h => exact ⟨h, rfl⟩
  | none =>
    obtain ⟨inputParam, hi', hfilled⟩ := exists_isFilled hfilled (getElem?_declared hi) rfl
    cases hi.symm.trans hi'
    cases hfilled

/-- A printed id fills its field. -/
theorem Codec.isFilled_idParam {h : Hash} :
    (codec.idParam (some h) : InputParam Number).isFilled = true := by
  have hne := codec.print_ne_nil h
  rw [Codec.idParam]
  cases hp : codec.print h with
  | nil => exact absurd hp hne
  | cons c text => rfl

/-- Declared fields are sent, each in its place. -/
theorem length_params
    (hparams : transformParams numbers (declared inputParams) inputParams true = some params) :
    params.length = inputParams.length := by
  rw [length_transformParams hparams, declared, List.length_map]

/-- Two selected ids are sent as they are printed. -/
theorem transformParams_ids {k e : Hash} :
    transformParams numbers [{}, {}] [codec.idParam (some k), codec.idParam (some e)] true =
      some [.text (codec.print k), .text (codec.print e)] := by
  obtain ⟨params, hparams⟩ := Option.isSome_iff_exists.mp <| isSome_transformParams.mpr <|
    @convertible_declared _ numbers [codec.idParam (some k), codec.idParam (some e)]
  refine hparams.trans (congrArg some ?_)
  refine List.ext_getElem? fun i => ?_
  match i with
  | 0 => exact getElem?_idParam rfl hparams
  | 1 => exact getElem?_idParam rfl hparams
  | i + 2 => simp [length_params hparams]

end

/-! ## Forms that go through `sudo` -/

namespace TxButton

/-- The button of a form that goes through `sudo`. -/
def sudoButton (callable : String) (inputParams : List (InputParam Number))
    (currentAccount sudoKey : Option AccountId) : Props Number AccountId where
  type := .sudoTx
  palletRpc := "votechain"
  callable := callable
  inputParams := inputParams
  paramFields := declared inputParams
  currentAccount := currentAccount
  sudoKey := sudoKey

/-- An enabled button of the forms sends the parameters from the account of the sudo key. -/
theorem press_sudoButton [DecidableEq AccountId] {numbers : Numbers Number}
    {inputParams : List (InputParam Number)} {callable : String}
    {account key : Option AccountId} {r : Request Number AccountId}
    (h : (sudoButton callable inputParams account key).press numbers = some r) :
    ∃ a params, account = some a ∧ key = some a ∧
      allParamsFilled (declared inputParams) inputParams = true ∧
      transformParams numbers (declared inputParams) inputParams true = some params ∧
      r = .sudoTx (some a) "votechain" callable params := by
  rw [Props.press] at h
  split at h
  · cases h
  · rename_i henabled
    obtain ⟨params, hparams, rfl⟩ := Option.map_eq_some_iff.mp h
    cases account with
    | none => simp [Props.disabled, sudoButton] at henabled
    | some a =>
      cases key with
      | none => simp [Props.disabled, sudoButton, isSudoer] at henabled
      | some k =>
        simp only [Props.disabled, sudoButton, isSudoer, Bool.or_eq_true, not_or] at henabled
        obtain ⟨⟨⟨_, hfilled⟩, _⟩, hkey⟩ := henabled
        have hk : a = k := by simpa using hkey
        subst hk
        exact ⟨a, params, rfl, rfl, by simpa using hfilled, hparams, rfl⟩

end TxButton

end Votechain.Client

/-! ## The mock runtime -/

namespace Votechain.Mock
open Client Client.TxButton

/-- The characters from `0` on. -/
def digit (n : Nat) : Char := Char.ofNat (0x30 + n)

/-- A byte is printed as two digits. -/
def print (hash : List UInt8) : Text :=
  '0' :: 'x' :: hash.flatMap fun byte => [digit (byte.toNat / 16), digit (byte.toNat % 16)]

def readBytes : Text → Option (List UInt8)
  | high :: low :: rest =>
    (readBytes rest).map (UInt8.ofNat ((high.toNat - 0x30) * 16 + (low.toNat - 0x30)) :: ·)
  | [] => some []
  | [_] => none

def read (text : Text) : Option (List UInt8) := readBytes (text.drop 2)

def bytes (text : Text) : List UInt8 := text.map fun c => UInt8.ofNat c.toNat

theorem toNat_digit {n : Nat} (h : n < 16) : (digit n).toNat = 0x30 + n := by
  have hvalid : (0x30 + n).isValidChar := .inl (by omega)
  rw [digit, Char.ofNat, dif_pos hvalid]
  rfl

theorem isSpace_digit {n : Nat} (h : n < 16) : isSpace (digit n) = false := by
  simp only [isSpace, toNat_digit h, List.mem_cons, List.not_mem_nil, or_false,
    Bool.or_eq_false_iff, Bool.and_eq_false_iff, decide_eq_false_iff_not, not_or, not_le]
  omega

theorem read_print (hash : List UInt8) : read (print hash) = some hash := by
  rw [read, print, List.drop_succ_cons, List.drop_succ_cons, List.drop_zero]
  induction hash with
  | nil => rfl
  | cons byte hash ih =>
    have hlt := byte.toNat_lt
    have hbyte : (0x30 + byte.toNat / 16 - 0x30) * 16 + (0x30 + byte.toNat % 16 - 0x30) =
        byte.toNat := by omega
    rw [List.flatMap_cons, List.cons_append, List.cons_append, List.nil_append, readBytes, ih,
      toNat_digit (by omega), toNat_digit (by omega), hbyte]
    simp

theorem trim_print (hash : List UInt8) : trim (print hash) = print hash := by
  refine Text.trim_eq_self fun c hc => ?_
  have hc : c = '0' ∨ c = 'x' ∨ ∃ byte ∈ hash, c = digit (byte.toNat / 16) ∨
      c = digit (byte.toNat % 16) := by
    simpa [print] using hc
  rcases hc with rfl | rfl | ⟨byte, _, rfl | rfl⟩
  · decide
  · decide
  · have := byte.toNat_lt
    exact isSpace_digit (by omega)
  · exact isSpace_digit (by omega)

def codec : Codec (List UInt8) where
  print := print
  read := read
  bytes := bytes
  read_print := read_print
  trim_print := trim_print
  print_ne_nil _ := List.cons_ne_nil _ _

/-- The client of the mock runtime. It reads no numbers but 0. -/
def display : Display (List UInt8) Nat where
  toCodec := codec
  numbers := ⟨fun _ => 0, fun _ => 0, (· = 0)⟩
  toHuman _ := ""

end Votechain.Mock
