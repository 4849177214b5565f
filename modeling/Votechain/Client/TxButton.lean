import Votechain.Theory.Text

/-!
# The transaction button

`TxButton` turns what is in the fields of a form into the parameters of a call. It trims the texts,
sends blank ones as `null` or leaves them out, splits vectors at commas, and reads numbers. A form
may have a number in a field before anything is typed, and the number 0 is taken for blank. The
button is disabled while a field that is not optional is empty, and while the account may not send.
-/

namespace Votechain.Client.TxButton

/-- A text by its characters. -/
abbrev Text := List Char

/-- White space and line ends. -/
def isSpace (c : Char) : Bool :=
  c.toNat ∈ [0x09, 0x0A, 0x0B, 0x0C, 0x0D, 0x20, 0xA0, 0x1680, 0x2028, 0x2029, 0x202F, 0x205F,
    0x3000, 0xFEFF] || (0x2000 ≤ c.toNat && c.toNat ≤ 0x200A)

def trim (text : Text) : Text := Text.trim isSpace text

/-! ## Parameters -/

/-- The numbers of the runtime that reads them, with `Number.parseInt` and `Number.parseFloat`. Some
of them, as 0, are false in a condition. -/
structure Numbers (Number : Type) where
  parseInt : Text → Number
  parseFloat : Text → Number
  isFalsy : Number → Bool

/-- What a form keeps of a field. -/
inductive FieldValue (Number : Type) where
  | null
  | undefined
  | text (value : Text)
  | num (value : Number)
  deriving DecidableEq

/-- A field as the button is given it: as it is kept, or an object with that as its `value`. -/
inductive InputParam (Number : Type) where
  | plain (value : FieldValue Number)
  | object (value : FieldValue Number)
  deriving DecidableEq

/-- A field that is only declared to be there is a string and not optional. -/
structure ParamField where
  type : String := "string"
  optional : Bool := false
  deriving DecidableEq

/-- A parameter as it is sent. -/
inductive Param (Number : Type) where
  | null
  | text (value : Text)
  | num (value : Number)
  | object (value : FieldValue Number)
  | vec (values : List (Param Number))

namespace utils.paramConversion

def num : List String :=
  ["Compact<Balance>", "BalanceOf", "u8", "u16", "u32", "u64", "u128", "i8", "i16", "i32", "i64",
    "i128"]

end utils.paramConversion

/-- `text.indexOf(el) >= 0` -/
def hasInfix (text el : Text) : Bool := text.tails.any el.isPrefixOf

def isNumType (type : String) : Bool :=
  utils.paramConversion.num.any fun el => hasInfix type.toList el.toList

def isVecType (type : String) : Bool := hasInfix type.toList "Vec<".toList

/-- What is in a field that is not false in a condition. -/
inductive ParamVal (Number : Type) where
  | text (value : Text)
  | num (value : Number)
  | object (value : FieldValue Number)
  deriving DecidableEq

section
variable {Number : Type} (numbers : Numbers Number)

/-- Texts are trimmed, and an object stands for its text if it has one. -/
def InputParam.paramVal : InputParam Number → Option (ParamVal Number)
  | .plain (.text value) | .object (.text value) =>
    if trim value = [] then none else some (.text (trim value))
  | .plain (.num value) => if numbers.isFalsy value then none else some (.num value)
  | .plain .null | .plain .undefined => none
  | .object value => some (.object value)

/-- `paramVal[ind] || null` -/
def paramVal (inputParams : List (InputParam Number)) (ind : Nat) : Option (ParamVal Number) :=
  inputParams[ind]?.bind (·.paramVal numbers)

def parseNum (text : Text) : Number :=
  if hasInfix text ['.'] then numbers.parseFloat text else numbers.parseInt text

/-- Only a text can be split or read as a number. Anything else throws then. -/
def convert (type : String) : ParamVal Number → Option (Param Number)
  | .text value =>
    if isVecType type then
      some <| .vec <| ((value.splitOn ',').map trim).map fun single =>
        if isNumType type then .num (parseNum numbers single) else .text single
    else if isNumType type then
      some (.num (parseNum numbers value))
    else
      some (.text value)
  | .num value => if isVecType type || isNumType type then none else some (.num value)
  | .object value => if isVecType type || isNumType type then none else some (.object value)

def transformParams (paramFields : List ParamField) (inputParams : List (InputParam Number))
    (emptyAsNull : Bool) : Option (List (Param Number)) :=
  let params := paramFields.zipIdx.map fun (field, ind) =>
    (field, paramVal numbers inputParams ind)
  params.foldlM (fun memo (field, value) =>
    match value with
    | none => some (if emptyAsNull then memo ++ [.null] else memo)
    | some value => (convert numbers field.type value).map fun converted => memo ++ [converted]) []

end

section
variable {Number : Type}

/-- The field has a value, or an object with one. -/
def InputParam.isFilled : InputParam Number → Bool
  | .plain .null | .plain .undefined => false
  | .plain value | .object value =>
    match value with
    | .null | .text [] => false
    | _ => true

def allParamsFilled (paramFields : List ParamField) (inputParams : List (InputParam Number)) :
    Bool :=
  paramFields.isEmpty || paramFields.zipIdx.all fun (paramField, ind) =>
    paramField.optional || inputParams[ind]?.any InputParam.isFilled

end

/-! ## The button -/

inductive TxType where
  | query
  | rpc
  | signedTx
  | unsignedTx
  | sudoTx
  | uncheckedSudoTx
  | constant
  deriving DecidableEq

/-- What the button is given, the account that is logged in, and the sudo key if it is loaded. -/
structure Props (Number AccountId : Type) where
  type : TxType
  palletRpc : String
  callable : String
  inputParams : List (InputParam Number)
  paramFields : List ParamField
  currentAccount : Option AccountId
  sudoKey : Option AccountId

variable {Number AccountId : Type} [DecidableEq AccountId]

def isSudoer (sudoKey acctPair : Option AccountId) : Bool :=
  match sudoKey, acctPair with
  | some sudoKey, some acctPair => acctPair = sudoKey
  | _, _ => false

def Props.disabled (props : Props Number AccountId) : Bool :=
  let isSudo := props.type = .sudoTx
  let isUncheckedSudo := props.type = .uncheckedSudoTx
  let isSigned := props.type = .signedTx
  props.palletRpc.isEmpty || props.callable.isEmpty ||
    !allParamsFilled props.paramFields props.inputParams ||
    ((isSudo || isUncheckedSudo || isSigned) && props.currentAccount.isNone) ||
    ((isSudo || isUncheckedSudo) && !isSudoer props.sudoKey props.currentAccount)

/-- What pressing the button asks of the node. The unchecked call has the fields as they are. -/
inductive Request (Number AccountId : Type) where
  | query (palletRpc callable : String) (params : List (Param Number))
  | rpc (palletRpc callable : String) (params : List (Param Number))
  | constant (palletRpc callable : String)
  | unsignedTx (palletRpc callable : String) (params : List (Param Number))
  | signedTx (fromAcct : Option AccountId) (palletRpc callable : String)
      (params : List (Param Number))
  | sudoTx (fromAcct : Option AccountId) (palletRpc callable : String)
      (params : List (Param Number))
  | uncheckedSudoTx (fromAcct : Option AccountId) (palletRpc callable : String)
      (params : List (InputParam Number))

/-- Nothing is asked of the node if the parameters cannot be converted. -/
def Props.transaction (numbers : Numbers Number) (props : Props Number AccountId) :
    Option (Request Number AccountId) :=
  let transformed := transformParams numbers props.paramFields props.inputParams
  match props.type with
  | .sudoTx =>
    (transformed true).map (.sudoTx props.currentAccount props.palletRpc props.callable)
  | .uncheckedSudoTx =>
    some (.uncheckedSudoTx props.currentAccount props.palletRpc props.callable props.inputParams)
  | .signedTx =>
    (transformed true).map (.signedTx props.currentAccount props.palletRpc props.callable)
  | .unsignedTx => (transformed true).map (.unsignedTx props.palletRpc props.callable)
  | .query => (transformed true).map (.query props.palletRpc props.callable)
  | .rpc => (transformed false).map (.rpc props.palletRpc props.callable)
  | .constant => some (.constant props.palletRpc props.callable)

/-- Pressing the button. A disabled one does nothing. -/
def Props.press (numbers : Numbers Number) (props : Props Number AccountId) :
    Option (Request Number AccountId) :=
  if props.disabled then none else props.transaction numbers

/-! ## What is sent -/

section
variable {Number : Type} {numbers : Numbers Number} {paramFields : List ParamField}
  {inputParams : List (InputParam Number)} {field : ParamField} {i : Nat}
  {params : List (Param Number)}

/-- The text of a field, if it has one. -/
def InputParam.text? : InputParam Number → Option Text
  | .plain (.text value) | .object (.text value) => some value
  | _ => none

/-- The text of the field at an index. -/
def textAt (inputParams : List (InputParam Number)) (i : Nat) : Option Text :=
  inputParams[i]?.bind InputParam.text?

theorem paramVal_of_textAt {text : Text} (h : textAt inputParams i = some text) :
    paramVal numbers inputParams i =
      if trim text = [] then none else some (.text (trim text)) := by
  obtain ⟨inputParam, hi, htext⟩ := Option.bind_eq_some_iff.mp h
  rw [paramVal, hi, Option.bind_some]
  cases inputParam with
  | plain value | object value =>
    cases value with
    | text value =>
      cases htext
      rfl
    | _ => cases htext

theorem trim_eq_nil_iff {text : Text} : trim text = [] ↔ ∀ c ∈ text, isSpace c = true :=
  Text.trim_eq_nil_iff

/-- The field has only white space, or a number that counts as false. -/
def IsBlank (numbers : Numbers Number) (inputParam : InputParam Number) : Prop :=
  (∃ text, inputParam.text? = some text ∧ text ≠ [] ∧ ∀ c ∈ text, isSpace c = true) ∨
    ∃ value, inputParam = .plain (.num value) ∧ numbers.isFalsy value = true

theorem convert_ne_null {type : String} {value : ParamVal Number} :
    convert numbers type value ≠ some .null := by
  cases value with
  | text value =>
    rw [convert]
    split
    · exact nofun
    · split <;> exact nofun
  | num value | object value =>
    rw [convert]
    split <;> exact nofun

/-- The parameter for a field. -/
def paramAt (numbers : Numbers Number) (inputParams : List (InputParam Number))
    (field : ParamField) (i : Nat) : Option (Param Number) :=
  (paramVal numbers inputParams i).bind (convert numbers field.type)

/-- What is in the field is a text, or it is neither split nor read as a number. -/
def Converts (numbers : Numbers Number) (inputParams : List (InputParam Number))
    (field : ParamField) (i : Nat) : Prop :=
  ∀ value, paramVal numbers inputParams i = some value →
    (isVecType field.type || isNumType field.type) = true → ∃ text, value = .text text

theorem converts_of_none (h : paramVal numbers inputParams i = none) :
    Converts numbers inputParams field i := by
  intro value hv
  cases h.symm.trans hv

/-- A conversion throws exactly for what is no text, in a field of numbers or a vector. -/
theorem converts_iff {value : ParamVal Number}
    (h : paramVal numbers inputParams i = some value) :
    Converts numbers inputParams field i ↔ (convert numbers field.type value).isSome := by
  simp only [Converts, h, Option.some_inj, forall_eq']
  cases value with
  | text value =>
    rw [convert]
    split
    · simp
    · split <;> simp
  | num value | object value =>
    rw [convert]
    split <;> simp_all

/-- No field holds what cannot be converted. -/
def Convertible (numbers : Numbers Number) (paramFields : List ParamField)
    (inputParams : List (InputParam Number)) : Prop :=
  ∀ x ∈ paramFields.zipIdx, Converts numbers inputParams x.1 x.2

/-- The parameters that a field adds. -/
def sentFor (numbers : Numbers Number) (inputParams : List (InputParam Number))
    (emptyAsNull : Bool) (x : ParamField × Nat) : List (Param Number) :=
  match paramAt numbers inputParams x.1 x.2 with
  | none => if emptyAsNull then [.null] else []
  | some param => [param]

theorem sentFor_true {x : ParamField × Nat} : sentFor numbers inputParams true x =
    [(paramAt numbers inputParams x.1 x.2).getD .null] := by
  rw [sentFor]
  cases paramAt numbers inputParams x.1 x.2 <;> rfl

theorem sentFor_false {x : ParamField × Nat} : sentFor numbers inputParams false x =
    (paramAt numbers inputParams x.1 x.2).toList := by
  rw [sentFor]
  cases paramAt numbers inputParams x.1 x.2 <;> rfl

/-- A turn of the loop. -/
def convertNext (numbers : Numbers Number) (emptyAsNull : Bool) (memo : List (Param Number))
    (x : ParamField × Option (ParamVal Number)) : Option (List (Param Number)) :=
  match x.2 with
  | none => some (if emptyAsNull then memo ++ [.null] else memo)
  | some value => (convert numbers x.1.type value).map fun converted => memo ++ [converted]

theorem convertNext_of_converts {emptyAsNull : Bool} {memo : List (Param Number)}
    {x : ParamField × Nat} (h : Converts numbers inputParams x.1 x.2) :
    convertNext numbers emptyAsNull memo (x.1, paramVal numbers inputParams x.2) =
      some (memo ++ sentFor numbers inputParams emptyAsNull x) := by
  rw [convertNext, sentFor, paramAt]
  cases hv : paramVal numbers inputParams x.2 with
  | none => cases emptyAsNull <;> simp
  | some value =>
    obtain ⟨param, hparam⟩ := Option.isSome_iff_exists.mp ((converts_iff hv).mp h)
    simp [hparam]

theorem convertNext_eq_none {emptyAsNull : Bool} {memo : List (Param Number)}
    {x : ParamField × Nat} (h : ¬ Converts numbers inputParams x.1 x.2) :
    convertNext numbers emptyAsNull memo (x.1, paramVal numbers inputParams x.2) = none := by
  rw [convertNext]
  cases hv : paramVal numbers inputParams x.2 with
  | none => exact absurd (converts_of_none hv) h
  | some value =>
    rw [converts_iff hv, Option.not_isSome_iff_eq_none] at h
    simp [h]

/-- The parameters are those of the fields in turn. There are none exactly if a field cannot be
converted. -/
theorem transformParams_eq_some_iff {emptyAsNull : Bool} :
    transformParams numbers paramFields inputParams emptyAsNull = some params ↔
      Convertible numbers paramFields inputParams ∧
        params = paramFields.zipIdx.flatMap (sentFor numbers inputParams emptyAsNull) := by
  -- the loop started with parameters already collected
  have aux (l : List (ParamField × Nat)) (memo : List (Param Number)) :
      (l.map fun x => (x.1, paramVal numbers inputParams x.2)).foldlM
          (convertNext numbers emptyAsNull) memo = some params ↔
        (∀ x ∈ l, Converts numbers inputParams x.1 x.2) ∧
          params = memo ++ l.flatMap (sentFor numbers inputParams emptyAsNull) := by
    induction l generalizing memo with
    | nil => simp [eq_comm]
    | cons x l ih =>
      rw [List.map_cons, List.foldlM_cons, List.forall_mem_cons]
      by_cases hx : Converts numbers inputParams x.1 x.2
      · rw [convertNext_of_converts hx, Option.bind_eq_bind, Option.bind_some, ih,
          List.append_assoc, List.flatMap_cons, and_iff_right hx]
      · rw [convertNext_eq_none hx]
        simp [hx]
  exact aux _ []

theorem isSome_transformParams {emptyAsNull : Bool} :
    (transformParams numbers paramFields inputParams emptyAsNull).isSome ↔
      Convertible numbers paramFields inputParams := by
  simp [Option.isSome_iff_exists, transformParams_eq_some_iff]

/-- With blank fields sent as `null`, every field has its parameter. -/
theorem transformParams_true
    (h : transformParams numbers paramFields inputParams true = some params) :
    params = paramFields.zipIdx.map fun x => (paramAt numbers inputParams x.1 x.2).getD .null := by
  rw [(transformParams_eq_some_iff.mp h).2, List.map_eq_flatMap]
  exact List.flatMap_congr fun x _ => sentFor_true

theorem length_transformParams
    (h : transformParams numbers paramFields inputParams true = some params) :
    params.length = paramFields.length := by
  rw [transformParams_true h, List.length_map, List.length_zipIdx]

theorem getElem?_transformParams_true (hf : paramFields[i]? = some field)
    (h : transformParams numbers paramFields inputParams true = some params) :
    params[i]? = some ((paramAt numbers inputParams field i).getD .null) := by
  rw [transformParams_true h, List.getElem?_map, List.getElem?_zipIdx, hf]
  simp

/-- What has been converted did not throw. -/
theorem paramAt_eq_none_iff (hf : paramFields[i]? = some field)
    (h : transformParams numbers paramFields inputParams true = some params) :
    paramAt numbers inputParams field i = none ↔ paramVal numbers inputParams i = none := by
  have hconv := (transformParams_eq_some_iff.mp h).1 (field, i)
    (List.mk_mem_zipIdx_iff_getElem?.mpr hf)
  rw [paramAt]
  cases hv : paramVal numbers inputParams i with
  | none => simp
  | some value =>
    obtain ⟨param, hparam⟩ := Option.isSome_iff_exists.mp ((converts_iff hv).mp hconv)
    simp [hparam]

/-- A field is sent as `null` exactly if nothing is in it. -/
theorem getElem?_eq_null_iff (hf : paramFields[i]? = some field)
    (h : transformParams numbers paramFields inputParams true = some params) :
    params[i]? = some .null ↔ paramVal numbers inputParams i = none := by
  rw [getElem?_transformParams_true hf h, Option.some_inj, ← paramAt_eq_none_iff hf h]
  cases hp : paramAt numbers inputParams field i with
  | none => simp
  | some param =>
    obtain ⟨value, _, hconv⟩ := Option.bind_eq_some_iff.mp hp
    have hne : param ≠ .null := fun heq => convert_ne_null (heq ▸ hconv)
    simp [hne]

/-- A field that is not optional is filled when all are. -/
theorem exists_isFilled (h : allParamsFilled paramFields inputParams = true)
    (hf : paramFields[i]? = some field) (hm : field.optional = false) :
    ∃ inputParam, inputParams[i]? = some inputParam ∧ inputParam.isFilled = true := by
  rw [allParamsFilled, Bool.or_eq_true] at h
  rcases h with h | h
  · rw [List.isEmpty_iff] at h
    simp [h] at hf
  · have h := List.all_eq_true.mp h _ (List.mk_mem_zipIdx_iff_getElem?.mpr hf)
    dsimp only at h
    rw [hm, Bool.false_or] at h
    exact (Option.any_eq_true _ _).mp h

/-- Nothing is sent for a filled field only if it is blank. -/
theorem paramVal_eq_none_iff {inputParam : InputParam Number}
    (h : inputParam.isFilled = true) :
    inputParam.paramVal numbers = none ↔ IsBlank numbers inputParam := by
  cases inputParam with
  | plain value | object value =>
    cases value with
    | text value =>
      have hne : value ≠ [] := by
        rintro rfl
        cases h
      simp [InputParam.paramVal, IsBlank, InputParam.text?, trim_eq_nil_iff, hne]
    | num value => simp [InputParam.paramVal, IsBlank, InputParam.text?]
    | undefined => simp_all [InputParam.paramVal, IsBlank, InputParam.text?, InputParam.isFilled]
    | null => cases h

/-- With all fields filled, parameters are sent unless a number or an object would have to be
converted. Every field has one then, and one that is not optional is sent as `null` iff it has only
white space, or a number that counts as false. -/
theorem null_iff_blank (numbers : Numbers Number) (paramFields : List ParamField)
    (inputParams : List (InputParam Number))
    (h : allParamsFilled paramFields inputParams = true) :
    ((transformParams numbers paramFields inputParams true).isSome ↔
      Convertible numbers paramFields inputParams) ∧
    ∀ params : List (Param Number),
      transformParams numbers paramFields inputParams true = some params →
      params.length = paramFields.length ∧
      ∀ (i : Nat) (field : ParamField), paramFields[i]? = some field → field.optional = false →
        (params[i]? = some .null ↔
          ∃ inputParam, inputParams[i]? = some inputParam ∧ IsBlank numbers inputParam) := by
  refine ⟨isSome_transformParams, fun params hparams => ?_⟩
  refine ⟨length_transformParams hparams, fun i field hf hm => ?_⟩
  obtain ⟨inputParam, hi, hfilled⟩ := exists_isFilled h hf hm
  rw [getElem?_eq_null_iff hf hparams, paramVal, hi, Option.bind_some,
    paramVal_eq_none_iff hfilled]
  simp

/-- The form that transfers, with an address and the amount left at 0. -/
theorem null_iff_blank_transfer :
    let numbers : Numbers Nat := ⟨fun _ => 0, fun _ => 0, (· = 0)⟩
    let paramFields : List ParamField := [{}, {}]
    let inputParams : List (InputParam Nat) := [.plain (.text "0x01".toList), .plain (.num 0)]
    ((transformParams numbers paramFields inputParams true).isSome ↔
      Convertible numbers paramFields inputParams) ∧
    ∀ params : List (Param Nat),
      transformParams numbers paramFields inputParams true = some params →
      params.length = paramFields.length ∧
      ∀ (i : Nat) (field : ParamField), paramFields[i]? = some field → field.optional = false →
        (params[i]? = some .null ↔
          ∃ inputParam, inputParams[i]? = some inputParam ∧ IsBlank numbers inputParam) :=
  null_iff_blank _ _ _ (by decide)

/-! ### Leaving blanks out -/

/-- The parameter is not `null`. -/
def Param.isSome : Param Number → Bool
  | .null => false
  | _ => true

theorem Param.isSome_iff {param : Param Number} : param.isSome = true ↔ param ≠ .null := by
  cases param <;> simp [Param.isSome]

theorem isSome_of_paramAt {param : Param Number}
    (h : paramAt numbers inputParams field i = some param) : param.isSome = true := by
  obtain ⟨value, _, hconv⟩ := Option.bind_eq_some_iff.mp h
  exact Param.isSome_iff.mpr fun heq => convert_ne_null (heq ▸ hconv)

theorem filter_sentFor {x : ParamField × Nat} :
    (sentFor numbers inputParams true x).filter Param.isSome =
      sentFor numbers inputParams false x := by
  rw [sentFor_true, sentFor_false]
  cases hx : paramAt numbers inputParams x.1 x.2 with
  | none => rfl
  | some param => simp [isSome_of_paramAt hx]

/-- Leaving out blank fields leaves out what is otherwise sent as `null`. -/
theorem filter_transformParams : transformParams numbers paramFields inputParams false =
    (transformParams numbers paramFields inputParams true).map (·.filter Param.isSome) := by
  ext params
  rw [transformParams_eq_some_iff, Option.map_eq_some_iff]
  simp only [transformParams_eq_some_iff, and_assoc, exists_and_left, exists_eq_left,
    List.filter_flatMap, filter_sentFor]
  rw [@eq_comm _ params]

/-- A request that leaves out blank fields has what the others send but the `null`s. It has that in
their places iff only fields at the end are blank. -/
theorem transformParams_isPrefix_iff (numbers : Numbers Number) (paramFields : List ParamField)
    (inputParams : List (InputParam Number)) :
    transformParams numbers paramFields inputParams false =
      (transformParams numbers paramFields inputParams true).map (·.filter Param.isSome) ∧
    ∀ params, transformParams numbers paramFields inputParams true = some params →
      (params.filter Param.isSome <+: params ↔
        ∀ i j, i < j → j < paramFields.length → (paramVal numbers inputParams j).isSome →
          (paramVal numbers inputParams i).isSome) := by
  refine ⟨filter_transformParams, fun params hparams => ?_⟩
  rw [Text.filter_isPrefix_iff, List.pairwise_iff_getElem]
  have hlen := length_transformParams hparams
  have hsome (i : Nat) (hi : i < params.length) :
      params[i].isSome = true ↔ (paramVal numbers inputParams i).isSome = true := by
    have hnull := getElem?_eq_null_iff (List.getElem?_eq_getElem (hlen ▸ hi)) hparams
    rw [List.getElem?_eq_getElem hi, Option.some_inj] at hnull
    rw [Param.isSome_iff, Option.isSome_iff_ne_none]
    exact not_congr hnull
  constructor
  · intro h i j hij hj
    have := h i j (by omega) (by omega) hij
    rwa [hsome j (by omega), hsome i (by omega)] at this
  · intro h i j hi hj hij
    rw [hsome j hj, hsome i hi]
    exact h i j hij (by omega)

/-! ### Vectors -/

/-- A field for a vector of texts that has texts joined with commas is sent as these texts, each
trimmed. Only white space without a comma is sent as `null`. -/
theorem transformParams_intercalate (numbers : Numbers Number) (paramFields : List ParamField)
    (inputParams : List (InputParam Number)) (params : List (Param Number))
    (hparams : transformParams numbers paramFields inputParams true = some params) (i : Nat)
    (field : ParamField) (hf : paramFields[i]? = some field)
    (hvec : isVecType field.type = true) (hnum : isNumType field.type = false) (ls : List Text)
    (hls : ls ≠ []) (h : ∀ l ∈ ls, ',' ∉ l)
    (ht : textAt inputParams i = some ([','].intercalate ls)) :
    params[i]? = some (if ([','].intercalate ls).all isSpace then .null
      else .vec ((ls.map trim).map .text)) := by
  have hsep : isSpace ',' = false := by decide
  have hpieces : ((trim ([','].intercalate ls)).splitOn ',').map trim = ls.map trim :=
    Text.map_trim_splitOn_intercalate hsep hls h
  rw [getElem?_transformParams_true hf hparams, paramAt, paramVal_of_textAt ht]
  simp only [List.all_eq_true, ← trim_eq_nil_iff]
  split
  · rfl
  · have hconvert : convert numbers field.type (.text (trim ([','].intercalate ls))) =
        some (.vec ((ls.map trim).map .text)) := by
      rw [convert, if_pos hvec, hpieces, hnum]
      rfl
    rw [Option.bind_some, hconvert, Option.getD_some]

/-- Two accounts with a blank before the second one, after an optional field that is left blank. -/
theorem transformParams_intercalate_accounts :
    let ls := ["Alice".toList, " Bob".toList]
    let params : List (Param Nat) := [.null, .vec [.text "Alice".toList, .text "Bob".toList]]
    params[1]? = some (if ([','].intercalate ls).all isSpace then .null
      else .vec ((ls.map trim).map .text)) :=
  let ls := ["Alice".toList, " Bob".toList]
  transformParams_intercalate ⟨fun _ => 0, fun _ => 0, (· = 0)⟩
    [{ type := "Option<u32>", optional := true }, { type := "Vec<AccountId>" }]
    [.plain .undefined, .object (.text ([','].intercalate ls))] _ rfl 1
    { type := "Vec<AccountId>" } rfl (by decide) (by decide) ls (by decide) (by decide) rfl

end

end Votechain.Client.TxButton
