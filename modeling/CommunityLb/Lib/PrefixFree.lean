import Mathlib

/-!
# Codes that tell where they end

A code is prefix-free when no text starts with two codewords.  Codewords of a prefix-free code can
stand one after another, with a separator between them or none, and be told apart again.
-/

namespace CommunityLb

/-- Whatever follows a codeword, the codeword and what follows are told from the text. -/
def PrefixFree {α β : Type*} (valid : α → Prop) (code : α → List β) : Prop :=
  ∀ first second rest rest', valid first → valid second →
    code first ++ rest = code second ++ rest' → first = second ∧ rest = rest'

namespace PrefixFree

variable {α β γ : Type*} {valid : α → Prop} {code : α → List β}

/-- Different codewords of one length. -/
theorem of_length (injective : ∀ first second, valid first → valid second →
    code first = code second → first = second)
    (length : ∀ first second, valid first → valid second →
      (code first).length = (code second).length) : PrefixFree valid code := by
  intro first second rest rest' isValid isValid' same
  obtain ⟨sameCode, sameRest⟩ :=
    List.append_inj same (length first second isValid isValid')
  exact ⟨injective first second isValid isValid' sameCode, sameRest⟩

/-- Different texts with a mark at the end that none of them has. -/
theorem terminated {stop : β} (injective : ∀ first second, valid first → valid second →
    code first = code second → first = second)
    (unmarked : ∀ value, valid value → stop ∉ code value) :
    PrefixFree valid fun value => code value ++ [stop] := by
  intro first second rest rest' isValid isValid' same
  rw [List.append_assoc, List.append_assoc] at same
  have apart : ∀ {texts others texts' others' : List β}, stop ∉ texts → stop ∉ others →
      texts ++ stop :: texts' = others ++ stop :: others' → texts = others ∧ texts' = others' := by
    intro texts others texts' others' without without' same
    induction texts generalizing others with
    | nil =>
        cases others with
        | nil => exact ⟨rfl, (List.cons.inj same).2⟩
        | cons letter others =>
            have here : stop = letter := (List.cons.inj same).1
            exact absurd (here ▸ List.mem_cons_self) without'
    | cons letter texts ih =>
        cases others with
        | nil =>
            have here : letter = stop := (List.cons.inj same).1
            exact absurd (here ▸ List.mem_cons_self) without
        | cons other others =>
            obtain ⟨sameLetter, later⟩ := List.cons.inj same
            obtain ⟨sameTexts, sameRest⟩ := ih
              (fun member => without (List.mem_cons_of_mem _ member))
              (fun member => without' (List.mem_cons_of_mem _ member)) later
            exact ⟨by rw [sameLetter, sameTexts], sameRest⟩
  obtain ⟨sameCode, sameRest⟩ :=
    apart (unmarked first isValid) (unmarked second isValid') same
  exact ⟨injective first second isValid isValid' sameCode, sameRest⟩

/-- A mark before every codeword. -/
theorem after (free : PrefixFree valid code) (mark : List β) :
    PrefixFree valid fun value => mark ++ code value := by
  intro first second rest rest' isValid isValid' same
  rw [List.append_assoc, List.append_assoc] at same
  exact free first second rest rest' isValid isValid' (List.append_cancel_left same)

/-- A mark after every codeword. -/
theorem before (free : PrefixFree valid code) (mark : List β) :
    PrefixFree valid fun value => code value ++ mark := by
  intro first second rest rest' isValid isValid' same
  rw [List.append_assoc, List.append_assoc] at same
  obtain ⟨sameValue, later⟩ := free first second _ _ isValid isValid' same
  exact ⟨sameValue, List.append_cancel_left later⟩

/-- One codeword after another, the second's code told by the first. -/
theorem andThen {valid' : γ → Prop} {code' : γ → List β} (free : PrefixFree valid code)
    (free' : PrefixFree valid' code') :
    PrefixFree (fun both : α × γ => valid both.1 ∧ valid' both.2)
      fun both => code both.1 ++ code' both.2 := by
  rintro ⟨first, more⟩ ⟨second, other⟩ rest rest' ⟨isValid, isMore⟩ ⟨isValid', isOther⟩ same
  simp only [List.append_assoc] at same
  obtain ⟨rfl, later⟩ := free first second _ _ isValid isValid' same
  obtain ⟨rfl, sameRest⟩ := free' more other _ _ isMore isOther later
  exact ⟨rfl, sameRest⟩

/-- The code of what a value stands for. -/
theorem comap {valid' : γ → Prop} {change : γ → α} (free : PrefixFree valid code)
    (injective : change.Injective) (into : ∀ value, valid' value → valid (change value)) :
    PrefixFree valid' fun value => code (change value) := by
  intro first second rest rest' isValid isValid' same
  obtain ⟨sameValue, sameRest⟩ := free _ _ _ _ (into _ isValid) (into _ isValid') same
  exact ⟨injective sameValue, sameRest⟩

end PrefixFree

/-! ## A text in marks -/

section Escaped

variable {β : Type*} [DecidableEq β] {mark stop : β}

/-- A text with every mark in it doubled. -/
def escaped (mark : β) (text : List β) : List β :=
  text.flatMap fun letter => if letter = mark then [mark, mark] else [letter]

/-- A text whose marks are doubled ends where a mark is followed by something else. -/
theorem escaped_prefixFree (differs : stop ≠ mark) :
    PrefixFree (fun _ : List β => True) fun text => escaped mark text ++ [mark, stop] := by
  intro first second rest rest' _ _ same
  induction first generalizing second with
  | nil =>
      cases second with
      | nil => exact ⟨rfl, by simpa [escaped] using same⟩
      | cons letter second =>
          by_cases isMark : letter = mark
          · simp [escaped, isMark, differs] at same
          · simp [escaped, isMark, Ne.symm isMark] at same
  | cons letter first ih =>
      cases second with
      | nil =>
          by_cases isMark : letter = mark
          · simp [escaped, isMark, Ne.symm differs] at same
          · simp [escaped, isMark] at same
      | cons other second =>
          by_cases isMark : letter = mark
          · by_cases isOther : other = mark
            · simp only [escaped, List.flatMap_cons, isMark, isOther, if_true, List.cons_append,
                List.nil_append, List.cons.injEq, true_and] at same
              obtain ⟨rfl, sameRest⟩ := ih second (by simpa [escaped] using same)
              exact ⟨by rw [isMark, isOther], sameRest⟩
            · simp [escaped, isMark, isOther, Ne.symm isOther] at same
          · by_cases isOther : other = mark
            · simp [escaped, isMark, isOther] at same
            · simp only [escaped, List.flatMap_cons, isMark, isOther, if_false, List.cons_append,
                List.nil_append, List.cons.injEq] at same
              obtain ⟨rfl, later⟩ := same
              obtain ⟨rfl, sameRest⟩ := ih second (by simpa [escaped] using later)
              exact ⟨rfl, sameRest⟩

end Escaped

/-! ## Separators -/

section Joined

variable {α β : Type*} {valid : α → Prop} {code : α → List β} {separator : List β}

/-- Joined codewords are told apart, though the separator may stand in any of them. -/
theorem PrefixFree.intercalate_injective (free : PrefixFree valid code) (separates : separator ≠ [])
    (inhabited : ∀ value, valid value → code value ≠ []) {first second : List α}
    (isValid : ∀ value ∈ first, valid value) (isValid' : ∀ value ∈ second, valid value)
    (same : separator.intercalate (first.map code) = separator.intercalate (second.map code)) :
    first = second := by
  have starts : ∀ (value : α) (values : List α),
      separator.intercalate ((value :: values).map code) =
        code value ++
          (if values = [] then [] else separator ++ separator.intercalate (values.map code)) := by
    intro value values
    cases values <;> simp
  induction first generalizing second with
  | nil =>
      cases second with
      | nil => rfl
      | cons other second =>
          rw [starts] at same
          have nothing := (List.append_eq_nil_iff.mp same.symm).1
          exact absurd nothing (inhabited other (isValid' other List.mem_cons_self))
  | cons value first ih =>
      cases second with
      | nil =>
          rw [starts] at same
          have nothing := (List.append_eq_nil_iff.mp same).1
          exact absurd nothing (inhabited value (isValid value List.mem_cons_self))
      | cons other second =>
          rw [starts, starts] at same
          obtain ⟨rfl, later⟩ := free value other _ _ (isValid value List.mem_cons_self)
            (isValid' other List.mem_cons_self) same
          congr 1
          by_cases ends : first = []
          · by_cases ends' : second = []
            · rw [ends, ends']
            · simp [ends, ends', separates] at later
          · by_cases ends' : second = []
            · simp [ends, ends', separates] at later
            · rw [if_neg ends, if_neg ends'] at later
              exact ih (fun each member => isValid each (List.mem_cons_of_mem _ member))
                (fun each member => isValid' each (List.mem_cons_of_mem _ member))
                (List.append_cancel_left later)

end Joined

end CommunityLb
