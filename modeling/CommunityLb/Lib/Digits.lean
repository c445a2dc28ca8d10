import Mathlib

/-!
# Numbers as digits

The decimal and hexadecimal texts of numbers, and reading them back.
-/

namespace CommunityLb

/-! ## Decimal -/

/-- The number that decimal digits spell. -/
def ofDigits? (digits : List Char) : Option Nat :=
  if digits.isEmpty ∨ digits.any (!·.isDigit) then none
  else some (digits.foldl (fun number digit => 10 * number + (digit.toNat - '0'.toNat)) 0)

/-- A number's own digits spell it. -/
@[simp]
theorem ofDigits?_repr (number : Nat) : ofDigits? (Nat.repr number).toList = some number := by
  rw [Nat.toList_repr]
  have digits : ∀ digit ∈ Nat.toDigits 10 number, digit.isDigit = true := fun _ member =>
    Nat.isDigit_of_mem_toDigits (by decide) (by decide) member
  have valid : ¬ ((Nat.toDigits 10 number).isEmpty ∨
      (Nat.toDigits 10 number).any (!·.isDigit) = true) := by
    rintro (isEmpty | notDigit)
    · exact Nat.toDigits_ne_nil (List.isEmpty_iff.mp isEmpty)
    · obtain ⟨digit, member, notDigit⟩ := List.any_eq_true.mp notDigit
      rw [digits digit member] at notDigit
      cases notDigit
  rw [ofDigits?, if_neg valid]
  exact congrArg some Nat.ofDigitChars_ten_toDigits

/-! ## Hexadecimal -/

/-- The value of a hexadecimal digit. -/
def hexDigit? (digit : Char) : Option Nat :=
  if digit.isDigit then some (digit.toNat - '0'.toNat)
  else if 'a' ≤ digit ∧ digit ≤ 'f' then some (digit.toNat - 'a'.toNat + 10)
  else if 'A' ≤ digit ∧ digit ≤ 'F' then some (digit.toNat - 'A'.toNat + 10)
  else none

/-- The number that hexadecimal digits spell after another one's. -/
def ofHexDigits? (number : Nat) : List Char → Option Nat
  | [] => some number
  | digit :: digits =>
      match hexDigit? digit with
      | none => none
      | some value => ofHexDigits? (16 * number + value) digits

/-- The lowercase hexadecimal digits of a number, a given number of them. -/
def hexDigits : Nat → Nat → List Char
  | 0, _ => []
  | width + 1, value => hexDigits width (value / 16) ++ [Nat.digitChar (value % 16)]

theorem hexDigit?_lt {digit : Char} {value : Nat} (isValue : hexDigit? digit = some value) :
    value < 16 := by
  simp only [hexDigit?] at isValue
  split at isValue
  · next isDigit =>
      simp only [Char.isDigit, Bool.and_eq_true, decide_eq_true_eq,
        UInt32.le_iff_toNat_le] at isDigit
      have range : digit.toNat ≤ 57 := isDigit.2
      have zero : '0'.toNat = 48 := rfl
      cases isValue
      omega
  · split at isValue
    · next isLower =>
        have range : digit.toNat ≤ 102 := isLower.2
        have first : 'a'.toNat = 97 := rfl
        cases isValue
        omega
    · split at isValue
      · next isUpper =>
          have range : digit.toNat ≤ 70 := isUpper.2
          have first : 'A'.toNat = 65 := rfl
          cases isValue
          omega
      · cases isValue

/-- Each digit of what is spelled is one. -/
theorem ofHexDigits?_mem {number found : Nat} {digits : List Char}
    (spelled : ofHexDigits? number digits = some found) :
    ∀ digit ∈ digits, ∃ value, hexDigit? digit = some value := by
  induction digits generalizing number with
  | nil => simp
  | cons first digits ih =>
      simp only [ofHexDigits?] at spelled
      split at spelled
      · cases spelled
      · next value isValue =>
          intro digit member
          rcases List.mem_cons.mp member with rfl | later
          · exact ⟨value, isValue⟩
          · exact ih spelled digit later

/-- What digits spell is below the next power. -/
theorem ofHexDigits?_lt {number found : Nat} {digits : List Char}
    (spelled : ofHexDigits? number digits = some found) :
    found < (number + 1) * 16 ^ digits.length := by
  induction digits generalizing number with
  | nil =>
      cases spelled
      simp
  | cons digit digits ih =>
      simp only [ofHexDigits?] at spelled
      split at spelled
      · cases spelled
      · next value isValue =>
          have small := hexDigit?_lt isValue
          have bound := ih spelled
          calc
            found < (16 * number + value + 1) * 16 ^ digits.length := bound
            _ ≤ (16 * (number + 1)) * 16 ^ digits.length :=
                Nat.mul_le_mul_right _ (by omega)
            _ = (number + 1) * 16 ^ (digits.length + 1) := by ring

theorem ofHexDigits?_append (number : Nat) (digits more : List Char) :
    ofHexDigits? number (digits ++ more) =
      (ofHexDigits? number digits).bind fun found => ofHexDigits? found more := by
  induction digits generalizing number with
  | nil => rfl
  | cons digit digits ih =>
      rw [List.cons_append, ofHexDigits?, ofHexDigits?]
      split
      · rfl
      · exact ih _

theorem hexDigit?_digitChar : ∀ value < 16, hexDigit? (Nat.digitChar value) = some value := by
  decide

@[simp]
theorem length_hexDigits (width value : Nat) : (hexDigits width value).length = width := by
  induction width generalizing value with
  | zero => rfl
  | succ width ih => simp [hexDigits, ih]

/-- A number's own digits spell it. -/
theorem ofHexDigits?_hexDigits (number : Nat) {width value : Nat} (less : value < 16 ^ width) :
    ofHexDigits? number (hexDigits width value) = some (number * 16 ^ width + value) := by
  induction width generalizing value with
  | zero =>
      obtain rfl : value = 0 := by omega
      simp [hexDigits, ofHexDigits?]
  | succ width ih =>
      rw [Nat.pow_succ] at less
      rw [hexDigits, ofHexDigits?_append, ih (by omega), Option.bind_some, ofHexDigits?,
        hexDigit?_digitChar _ (Nat.mod_lt _ (by decide))]
      simp only [ofHexDigits?, Option.some.injEq]
      rw [Nat.pow_succ]
      have parts := Nat.div_add_mod value 16
      ring_nf
      omega

/-- A number's own digits spell it, as many as it takes. -/
theorem ofHexDigits?_toDigits (value : Nat) : ofHexDigits? 0 (Nat.toDigits 16 value) = some value := by
  induction value using Nat.strongRecOn with
  | ind value ih =>
      obtain small | large := Nat.lt_or_ge value 16
      · rw [Nat.toDigits_of_lt_base small, ofHexDigits?, hexDigit?_digitChar value small]
        simp [ofHexDigits?]
      · rw [Nat.toDigits_of_base_le (by decide) large, ofHexDigits?_append,
          ih (value / 16) (by omega), Option.bind_some, ofHexDigits?,
          hexDigit?_digitChar _ (Nat.mod_lt _ (by decide))]
        simp only [ofHexDigits?, Option.some.injEq]
        omega

theorem hexDigits_injective {width first second : Nat} (less : first < 16 ^ width)
    (less' : second < 16 ^ width) (same : hexDigits width first = hexDigits width second) :
    first = second := by
  have spelled := ofHexDigits?_hexDigits 0 less
  rw [same, ofHexDigits?_hexDigits 0 less'] at spelled
  simpa using spelled.symm

end CommunityLb
