import CommunityLb.Lib.Digits

/-!
# JSON documents and what is read from them

The documents that payloads and attribute values are, how a struct is read from one, and the text
forms of numbers, addresses and bytes.
-/

namespace CommunityLb
namespace Codec

/-- A JSON document. -/
inductive JsonValue where
  | null
  | bool (value : Bool)
  | integer (value : Int)
  /-- A number with a fraction or an exponent, as it is written. -/
  | real (text : String)
  | string (value : String)
  | array (values : List JsonValue)
  | object (fields : List (String × JsonValue))

/-! ## Text forms -/

/-- A text without its hexadecimal mark. -/
def withoutMark (text : String) : List Char :=
  match text.toList with
  | '0' :: 'x' :: digits | '0' :: 'X' :: digits => digits
  | digits => digits

/-- A hex string of a fixed number of digits. -/
def hexText (digits number : Nat) : String :=
  "0x" ++ String.ofList (hexDigits digits number)

/-- The number of a hex string of so many digits. -/
def parseFixed (digits : Nat) (text : String) : Option Nat :=
  if (withoutMark text).length = digits then ofHexDigits? 0 (withoutMark text) else none

/-- The hexadecimal digits of bytes, two each. -/
def hexOfBytes (bytes : List (BitVec 8)) : List Char :=
  bytes.flatMap fun byte => hexDigits 2 byte.toNat

/-- The bytes of hexadecimal digits. -/
def bytesOfHex? : List Char → Option (List (BitVec 8))
  | [] => some []
  | high :: low :: digits =>
      match ofHexDigits? 0 [high, low], bytesOfHex? digits with
      | some byte, some bytes => some (BitVec.ofNat 8 byte :: bytes)
      | _, _ => none
  | [_] => none

/-- Digits with or without a plus sign before them, of a number of 64 bits. -/
def parseDigits (spelled : List Char → Option Nat) (text : List Char) : Option (BitVec 64) :=
  let digits := match text with
    | '+' :: digits => digits
    | digits => digits
  (spelled digits).bind fun number =>
    if number < 2 ^ 64 then some (BitVec.ofNat 64 number) else none

/-- The number of hexadecimal digits, of which there are some. -/
def spelledHex (digits : List Char) : Option Nat :=
  if digits.isEmpty then none else ofHexDigits? 0 digits

/-- An amount in decimal digits, underscores between them left out. -/
def parseWei (text : String) : Option (BitVec 256) :=
  let digits := text.toList.filter (· ≠ '_')
  if digits.all Char.isDigit then
    let number := Nat.ofDigitChars 10 digits 0
    if number < 2 ^ 256 then some (BitVec.ofNat 256 number) else none
  else none

@[simp]
theorem withoutMark_hexText (digits number : Nat) :
    withoutMark (hexText digits number) = hexDigits digits number := by
  simp [withoutMark, hexText]

/-- A fixed-width number's hex string reads back. -/
theorem parseFixed_hexText {digits number : Nat} (less : number < 16 ^ digits) :
    parseFixed digits (hexText digits number) = some number := by
  simp [parseFixed, ofHexDigits?_hexDigits 0 less]

/-- Bytes read back from their digits. -/
theorem bytesOfHex?_hexOfBytes (bytes : List (BitVec 8)) :
    bytesOfHex? (hexOfBytes bytes) = some bytes := by
  induction bytes with
  | nil => rfl
  | cons byte bytes ih =>
      have two : hexDigits 2 byte.toNat =
          [Nat.digitChar (byte.toNat / 16 % 16), Nat.digitChar (byte.toNat % 16)] := rfl
      have less : byte.toNat < 16 ^ 2 := byte.isLt
      have spelled := ofHexDigits?_hexDigits 0 less
      rw [two] at spelled
      simp only [hexOfBytes, List.flatMap_cons, two, List.cons_append, List.nil_append,
        bytesOfHex?, spelled]
      rw [hexOfBytes] at ih
      simp [ih]

/-- A number's decimal digits read back. -/
theorem parseDigits_repr (number : BitVec 64) :
    parseDigits ofDigits? (Nat.repr number.toNat).toList = some number := by
  have unsigned : ∀ digits, (Nat.repr number.toNat).toList ≠ '+' :: digits := by
    intro digits same
    have isDigit := Nat.isDigit_of_mem_toDigits (b := 10) (n := number.toNat) (c := '+')
      (by decide) (by decide) (by rw [← Nat.toList_repr, same]; exact List.mem_cons_self)
    exact absurd isDigit (by decide)
  have spelled := ofDigits?_repr number.toNat
  simp only [parseDigits]
  rw [spelled, Option.bind_some, if_pos number.isLt, BitVec.ofNat_toNat, BitVec.setWidth_eq]

/-- An amount's decimal digits read back. -/
theorem parseWei_repr (amount : BitVec 256) : parseWei (Nat.repr amount.toNat) = some amount := by
  have digits : ∀ digit ∈ (Nat.repr amount.toNat).toList, digit.isDigit = true := by
    rw [Nat.toList_repr]
    exact fun _ member => Nat.isDigit_of_mem_toDigits (by decide) (by decide) member
  have whole : (Nat.repr amount.toNat).toList.filter (· ≠ '_') = (Nat.repr amount.toNat).toList := by
    rw [List.filter_eq_self]
    intro digit member
    have isDigit := digits digit member
    apply decide_eq_true
    rintro rfl
    exact absurd isDigit (by decide)
  have value : Nat.ofDigitChars 10 (Nat.repr amount.toNat).toList 0 = amount.toNat := by
    rw [Nat.toList_repr]
    exact Nat.ofDigitChars_ten_toDigits
  simp only [parseWei, whole, value]
  rw [if_pos (List.all_eq_true.mpr digits), if_pos amount.isLt, BitVec.ofNat_toNat,
    BitVec.setWidth_eq]

/-! ## Reading a struct -/

namespace JsonValue

/-- A text. -/
def string? : JsonValue → Option String
  | string value => some value
  | _ => none

/-- An unsigned number of a width. -/
def unsigned? (width : Nat) : JsonValue → Option (BitVec width)
  | integer value =>
      if 0 ≤ value ∧ value < 2 ^ width then some (BitVec.ofNat width value.toNat) else none
  | _ => none

/-- An amount, as a decimal text. -/
def wei? : JsonValue → Option (BitVec 256)
  | string value => parseWei value
  | _ => none

/-- An entity key, as a hex string. -/
def key? : JsonValue → Option (BitVec 256)
  | string value => (parseFixed 64 value).map (BitVec.ofNat 256)
  | _ => none

/-- A field of a struct with these fields, if the document has it: by its name in an object, which
has it once at most, and by its place in an array no longer than the fields. -/
def field? (names : List String) (document : JsonValue) (name : String) :
    Option (Option JsonValue) :=
  match document with
  | object fields =>
      match fields.filter fun field => field.1 = name with
      | [] => some none
      | [field] => some (some field.2)
      | _ => none
  | array values => if values.length ≤ names.length then some values[names.idxOf name]? else none
  | _ => none

/-- A field that a struct needs. -/
def required {α : Type} (names : List String) (document : JsonValue) (name : String)
    (read : JsonValue → Option α) : Option α :=
  (document.field? names name).join.bind read

/-- A field that a struct may have. -/
def optional {α : Type} (names : List String) (document : JsonValue) (name : String)
    (read : JsonValue → Option α) : Option (Option α) :=
  (document.field? names name).bind fun
    | none => some none
    | some null => some none
    | some value => (read value).map some

@[simp]
theorem unsigned?_integer {width : Nat} (number : BitVec width) :
    (integer number.toNat).unsigned? width = some number := by
  have range : (0 : Int) ≤ number.toNat ∧ (number.toNat : Int) < 2 ^ width := by
    refine ⟨Int.natCast_nonneg _, ?_⟩
    exact_mod_cast number.isLt
  rw [unsigned?, if_pos range, Int.toNat_natCast, BitVec.ofNat_toNat, BitVec.setWidth_eq]

@[simp]
theorem wei?_string (amount : BitVec 256) : (string (Nat.repr amount.toNat)).wei? = some amount :=
  parseWei_repr amount

@[simp]
theorem key?_string (key : BitVec 256) : (string (hexText 64 key.toNat)).key? = some key := by
  rw [key?, parseFixed_hexText key.isLt, Option.map_some, BitVec.ofNat_toNat, BitVec.setWidth_eq]

end JsonValue

/-! ## Documents with more fields -/

/-- The fields that a reader knows in a document. -/
inductive Shape where
  | leaf
  | struct (known : List (String × Shape))

/-- A document with more fields, none of which its reader knows. -/
inductive Grown : Shape → JsonValue → JsonValue → Prop where
  | same (shape : Shape) (value : JsonValue) : Grown shape value value
  | object (known : List (String × Shape)) (fields more : List (String × JsonValue))
      (inner : String → JsonValue)
      (absent : ∀ entry ∈ known, fields.filter (fun field => field.1 = entry.1) = [] →
        more.filter (fun field => field.1 = entry.1) = [])
      (present : ∀ entry ∈ known, ∀ value,
        fields.filter (fun field => field.1 = entry.1) = [(entry.1, value)] →
          more.filter (fun field => field.1 = entry.1) = [(entry.1, inner entry.1)])
      (grows : ∀ entry ∈ known, ∀ value,
        fields.filter (fun field => field.1 = entry.1) = [(entry.1, value)] →
          Grown entry.2 value (inner entry.1)) :
      Grown (.struct known) (.object fields) (.object more)

namespace Grown

/-- What a reader knows nothing inside of is the same. -/
theorem leaf {value grown : JsonValue} (isGrown : Grown .leaf value grown) : grown = value := by
  cases isGrown
  rfl

variable {known : List (String × Shape)} {fields : List (String × JsonValue)} {grown : JsonValue}

/-- A field that a struct has, it has in the document with more fields. -/
theorem field {names : List String} (isGrown : Grown (.struct known) (.object fields) grown)
    {name : String} {shape : Shape} (isKnown : (name, shape) ∈ known) {value : JsonValue}
    (has : fields.filter (fun field => field.1 = name) = [(name, value)]) :
    ∃ inner, grown.field? names name = some (some inner) ∧ Grown shape value inner := by
  cases isGrown with
  | same => exact ⟨value, by simp [JsonValue.field?, has], .same _ _⟩
  | object _ _ more inner _ present grows =>
      have has' := present (name, shape) isKnown value has
      exact ⟨inner name, by simp [JsonValue.field?, has'], grows (name, shape) isKnown value has⟩

/-- A known field is read where it reads grown. -/
theorem nested {α : Type} {names : List String}
    (isGrown : Grown (.struct known) (.object fields) grown) {name : String} {shape : Shape}
    (isKnown : (name, shape) ∈ known) {value : JsonValue}
    (has : fields.filter (fun field => field.1 = name) = [(name, value)])
    {read : JsonValue → Option α} {result : α}
    (isRead : ∀ inner, Grown shape value inner → read inner = some result) :
    grown.required names name read = some result := by
  obtain ⟨inner, found, isInner⟩ := isGrown.field isKnown has
  rw [JsonValue.required, found]
  exact isRead inner isInner

/-- A known field that reads the same is read. -/
theorem required {α : Type} {names : List String}
    (isGrown : Grown (.struct known) (.object fields) grown) {name : String}
    (isKnown : (name, .leaf) ∈ known) {value : JsonValue}
    (has : fields.filter (fun field => field.1 = name) = [(name, value)])
    {read : JsonValue → Option α} {result : α} (isRead : read value = some result) :
    grown.required names name read = some result :=
  isGrown.nested isKnown has fun _ isInner => isInner.leaf ▸ isRead

/-- A known field that may be absent and is not is read. -/
theorem optional {α : Type} {names : List String}
    (isGrown : Grown (.struct known) (.object fields) grown) {name : String}
    (isKnown : (name, .leaf) ∈ known) {value : JsonValue} (isSome : value ≠ .null)
    (has : fields.filter (fun field => field.1 = name) = [(name, value)])
    {read : JsonValue → Option α} {result : α} (isRead : read value = some result) :
    grown.optional names name read = some (some result) := by
  obtain ⟨inner, found, same⟩ := isGrown.field isKnown has
  rw [JsonValue.optional, found, same.leaf]
  cases value with
  | null => exact absurd rfl isSome
  | _ => simp [isRead]

/-- A known field that is absent stays so. -/
theorem absent {α : Type} {names : List String}
    (isGrown : Grown (.struct known) (.object fields) grown) {name : String} {shape : Shape}
    (isKnown : (name, shape) ∈ known)
    (hasNone : fields.filter (fun field => field.1 = name) = []) {read : JsonValue → Option α} :
    grown.optional names name read = some none := by
  cases isGrown with
  | same => simp [JsonValue.optional, JsonValue.field?, hasNone]
  | object _ _ more _ absent _ _ =>
      simp [JsonValue.optional, JsonValue.field?, absent (name, shape) isKnown hasNone]

end Grown

end Codec
end CommunityLb
