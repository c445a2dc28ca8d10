import CommunityLb.Lib.Digits

/-!
# JavaScript's numbers

The double that a whole number is read as, and the big integer of a text.
-/

namespace CommunityLb

/-- The IEEE double nearest a whole number, ties to even. -/
def doubleOf (number : Int) : Int :=
  if number.natAbs.log2 < 53 then number
  else
    let unit := 2 ^ (number.natAbs.log2 - 52)
    let steps := number.natAbs / unit
    let rest := number.natAbs % unit
    let rounded :=
      if 2 * rest > unit ∨ 2 * rest = unit ∧ steps % 2 = 1 then steps + 1 else steps
    number.sign * (rounded * unit : Nat)

theorem doubleOf_small {number : Int} (small : number.natAbs < 2 ^ 53) :
    doubleOf number = number := by
  have size : number.natAbs.log2 < 53 := by
    by_cases zero : number.natAbs = 0
    · simp [zero]
    · exact (Nat.log2_lt zero).mpr small
  rw [doubleOf, if_pos size]

/-- Whether a character is white space, as numbers are read. -/
def isSpace (c : Char) : Bool :=
  [9, 10, 11, 12, 13, 32, 160, 5760, 8232, 8233, 8239, 8287, 12288, 65279].contains c.toNat ||
    (8192 ≤ c.toNat && c.toNat ≤ 8202)

/-- Digits of a base up to sixteen, some of them. -/
def digitsOf? (base : Nat) (digits : List Char) : Option Int :=
  if digits.isEmpty then none
  else
    (digits.foldl (fun number digit => do
      let value ← hexDigit? digit
      if value < base then return base * (← number) + value else none) (some 0)).map Int.ofNat

/-- The number of a text between white space: empty, after the mark of a base, or decimal with a sign
or without. -/
def literal? : List Char → Option Int
  | [] => some 0
  | '0' :: 'x' :: digits | '0' :: 'X' :: digits =>
      if digits.isEmpty then none else (ofHexDigits? 0 digits).map Int.ofNat
  | '0' :: 'o' :: digits | '0' :: 'O' :: digits => digitsOf? 8 digits
  | '0' :: 'b' :: digits | '0' :: 'B' :: digits => digitsOf? 2 digits
  | '-' :: digits => (ofDigits? digits).map fun number => -(number : Int)
  | '+' :: digits => (ofDigits? digits).map Int.ofNat
  | digits => (ofDigits? digits).map Int.ofNat

/-- `BigInt` of a text, none where it throws. -/
def bigInt? (text : List Char) : Option Int :=
  literal? ((text.dropWhile isSpace).reverse.dropWhile isSpace).reverse

/-- A hexadecimal digit is no white space. -/
theorem isSpace_of_hexDigit? {c : Char} {value : Nat} (isValue : hexDigit? c = some value) :
    isSpace c = false := by
  have range : 48 ≤ c.toNat ∧ c.toNat ≤ 102 := by
    simp only [hexDigit?] at isValue
    split at isValue
    · next isDigit =>
        simp only [Char.isDigit, Bool.and_eq_true, decide_eq_true_eq] at isDigit
        have low : 48 ≤ c.toNat := isDigit.1
        have high : c.toNat ≤ 57 := isDigit.2
        omega
    · split at isValue
      · next isLower =>
          have low : 97 ≤ c.toNat := isLower.1
          have high : c.toNat ≤ 102 := isLower.2
          omega
      · split at isValue
        · next isUpper =>
            have low : 65 ≤ c.toNat := isUpper.1
            have high : c.toNat ≤ 70 := isUpper.2
            omega
        · cases isValue
  simp only [isSpace, List.contains_eq_mem, List.mem_cons, List.not_mem_nil, or_false,
    Bool.or_eq_false_iff, decide_eq_false_iff_not, Bool.and_eq_false_iff]
  omega

theorem dropWhile_isSpace {text : List Char} (plain : ∀ c ∈ text, isSpace c = false) :
    text.dropWhile isSpace = text := by
  cases text with
  | nil => rfl
  | cons c text =>
      rw [List.dropWhile_cons_of_neg]
      simp [plain c List.mem_cons_self]

/-- A text without white space is its literal. -/
theorem bigInt?_of_plain {text : List Char} (plain : ∀ c ∈ text, isSpace c = false) :
    bigInt? text = literal? text := by
  have back : ∀ c ∈ text.reverse, isSpace c = false :=
    fun c member => plain c (List.mem_reverse.mp member)
  rw [bigInt?, dropWhile_isSpace plain, dropWhile_isSpace back, List.reverse_reverse]

theorem literal?_digits {digits : List Char} (some_ : digits ≠ [])
    (all : ∀ digit ∈ digits, digit.isDigit = true) :
    literal? digits = (ofDigits? digits).map Int.ofNat := by
  have no : ∀ c ∈ digits, c.isDigit = false → False := fun c member notDigit => by
    rw [all c member] at notDigit
    cases notDigit
  rw [literal?.eq_def]
  split
  · exact absurd rfl some_
  all_goals first
    | rfl
    | exact (no _ (List.mem_cons_of_mem _ List.mem_cons_self) (by decide)).elim
    | exact (no _ List.mem_cons_self (by decide)).elim

/-- A number's decimal digits are its big integer. -/
theorem bigInt?_repr (number : Nat) : bigInt? (Nat.repr number).toList = some (number : Int) := by
  have all : ∀ digit ∈ (Nat.repr number).toList, digit.isDigit = true := by
    rw [Nat.toList_repr]
    exact fun _ member => Nat.isDigit_of_mem_toDigits (by decide) (by decide) member
  have some_ : (Nat.repr number).toList ≠ [] := by
    rw [Nat.toList_repr]
    exact Nat.toDigits_ne_nil
  have plain : ∀ digit ∈ (Nat.repr number).toList, isSpace digit = false := by
    intro digit member
    have isValue : hexDigit? digit = some (digit.toNat - '0'.toNat) := by
      rw [hexDigit?, if_pos (all digit member)]
    exact isSpace_of_hexDigit? isValue
  rw [bigInt?_of_plain plain, literal?_digits some_ all, ofDigits?_repr]
  rfl

end CommunityLb
