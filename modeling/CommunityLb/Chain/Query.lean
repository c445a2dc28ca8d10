import CommunityLb.Chain.RoundTrip
import CommunityLb.Chain.Store
import CommunityLb.Lib.PrefixFree

/-!
# Queries as they are sent

A query is a list of typed conditions, and the node is sent a text of them.  The text tells the
conditions, whatever the strings in them hold.
-/

namespace CommunityLb
namespace Codec

/-- One condition of a query. -/
inductive Condition where
  /-- One entity, whoever wrote it and whatever its kind. -/
  | key (key : EntityKey)
  | creator (creator : Address)
  | attr (name : String) (value : AttributeValue)
  /-- Still alive at a head. -/
  | expiresAfter (head : BitVec 64)
  | expiresBy (block : BitVec 64)

/-- A filter, and the block it is answered at instead of the head. -/
structure Query where
  conditions : List Condition
  pinned : Option (BitVec 64)

namespace Query

/-- The records of a kind, at the schema version this code reads. -/
def kind (kind : String) : Query where
  conditions := [.attr "kind" (.str kind), .attr "v" (.i32 SCHEMA_VERSION)]
  pinned := none

/-- One entity by its key, of any kind and version. -/
def byKey (key : EntityKey) : Query where
  conditions := [.key key]
  pinned := none

/-- Answered at this block rather than at the head. -/
def atBlock (query : Query) (block : BitVec 64) : Query :=
  { query with pinned := some block }

/-- One more condition. -/
def push (query : Query) (condition : Condition) : Query :=
  { query with conditions := query.conditions ++ [condition] }

def creator (query : Query) (creator : Address) : Query :=
  query.push (.creator creator)

def key (query : Query) (key : EntityKey) : Query :=
  query.push (.key key)

def attr (query : Query) (name : String) (value : AttributeValue) : Query :=
  query.push (.attr name value)

def attrAddr (query : Query) (name : String) (value : Address) : Query :=
  query.attr name (.addr value)

def attrStr (query : Query) (name value : String) : Query :=
  query.attr name (.str value)

def attrU64 (query : Query) (name : String) (value : BitVec 64) : Query :=
  query.attr name (.u64 value)

def attrKey (query : Query) (name : String) (value : EntityKey) : Query :=
  query.attr name (.key value)

def expiresAfter (query : Query) (head : BitVec 64) : Query :=
  query.push (.expiresAfter head)

def expiresBy (query : Query) (block : BitVec 64) : Query :=
  query.push (.expiresBy block)

end Query

/-! ## The text -/

/-- The quote that a string literal stands in. -/
def quote : Char :=
  Char.ofNat 39

/-- A number's decimal digits. -/
def digitsOf (number : Nat) : List Char :=
  (Nat.repr number).toList

/-- A signed number's decimal digits. -/
def signedDigitsOf : Int → List Char
  | .ofNat number => digitsOf number
  | .negSucc number => '-' :: digitsOf (number + 1)

/-- A typed literal in the query language.  A string's only escape is a quote doubled, and no query
filters on bytes. -/
def literal : AttributeValue → Option (List Char)
  | .str value => some ("str(".toList ++ quote :: (escaped quote value.toList ++ [quote, ')']))
  | .i32 value => some ("i32(".toList ++ (signedDigitsOf value.toInt ++ [')']))
  | .u64 value => some ("u64(".toList ++ (digitsOf value.toNat ++ [')']))
  | .addr value => some ("addr(".toList ++ ((hexText 40 value.toNat).toList ++ [')']))
  | .key value => some ("key(".toList ++ ((hexText 64 value.toNat).toList ++ [')']))
  | .bytes _ => none

/-- A condition in the query language. -/
def Condition.text : Condition → Option (List Char)
  | .key entity => some ("$key = key(".toList ++ ((hexText 64 entity.toNat).toList ++ [')']))
  | .creator writer =>
      some ("$creator = addr(".toList ++ ((hexText 40 writer.toNat).toList ++ [')']))
  | .attr name value => (literal value).map fun text => name.toList ++ (" = ".toList ++ text)
  | .expiresAfter head => some ("$expiresAt > u64(".toList ++ (digitsOf head.toNat ++ [')']))
  | .expiresBy block => some ("$expiresAt <= u64(".toList ++ (digitsOf block.toNat ++ [')']))

/-- The conditions joined. -/
def Query.text (query : Query) : Option String :=
  (query.conditions.mapM Condition.text).map fun texts =>
    String.ofList (" AND ".toList.intercalate texts)

/-- A hex quantity. -/
def quantity (number : Nat) : String :=
  "0x" ++ String.ofList (Nat.toDigits 16 number)

/-- What a page is asked for with. -/
def Query.pageParams (query : Query) : Option JsonValue :=
  query.text.map fun text =>
    .array
      [.string text,
        .object
          ([("select",
              .object
                [("key", .bool true), ("creator", .bool true), ("createdAt", .bool true),
                  ("updatedAt", .bool true), ("expiresAt", .bool true),
                  ("attributes", .bool true)]),
            ("limit", .string (quantity PAGE_LIMIT))] ++
            match query.pinned with
            | some block => [("atBlock", .string (quantity block.toNat))]
            | none => [])]

/-- What the count is asked for with, which is always the head's. -/
def Query.countParams (query : Query) : Option JsonValue :=
  query.text.map fun text =>
    .array [.string text, .object [("select", .object [("count", .bool true)])]]

/-! ## What the text tells -/

theorem digitsOf_injective {first second : Nat} (same : digitsOf first = digitsOf second) :
    first = second := by
  have read := ofDigits?_repr first
  rw [show (Nat.repr first).toList = (Nat.repr second).toList from same, ofDigits?_repr] at read
  exact (Option.some.inj read).symm

theorem isDigit_of_mem_digitsOf {number : Nat} {letter : Char} (member : letter ∈ digitsOf number) :
    letter.isDigit = true := by
  rw [digitsOf, Nat.toList_repr] at member
  exact Nat.isDigit_of_mem_toDigits (by decide) (by decide) member

theorem signedDigitsOf_injective {first second : Int}
    (same : signedDigitsOf first = signedDigitsOf second) : first = second := by
  have signed : ∀ number, '-' ∉ digitsOf number := fun number member =>
    absurd (isDigit_of_mem_digitsOf member) (by decide)
  cases first with
  | ofNat first =>
      cases second with
      | ofNat second => exact congrArg Int.ofNat (digitsOf_injective same)
      | negSucc second =>
          have here : '-' ∈ digitsOf first := by
            rw [show digitsOf first = '-' :: digitsOf (second + 1) from same]
            exact List.mem_cons_self
          exact absurd here (signed first)
  | negSucc first =>
      cases second with
      | ofNat second =>
          have here : '-' ∈ digitsOf second := by
            rw [show digitsOf second = '-' :: digitsOf (first + 1) from same.symm]
            exact List.mem_cons_self
          exact absurd here (signed second)
      | negSucc second =>
          have later := digitsOf_injective (List.cons.inj same).2
          rw [Nat.succ.inj later]

/-- A number in digits ends at the bracket. -/
theorem digitsOf_prefixFree :
    PrefixFree (fun _ : Nat => True) fun number => digitsOf number ++ [')'] :=
  .terminated (fun _ _ _ _ => digitsOf_injective) fun _ _ member =>
    absurd (isDigit_of_mem_digitsOf member) (by decide)

theorem signedDigitsOf_prefixFree :
    PrefixFree (fun _ : Int => True) fun number => signedDigitsOf number ++ [')'] := by
  refine .terminated (fun _ _ _ _ => signedDigitsOf_injective) fun number _ member => ?_
  cases number with
  | ofNat number => exact absurd (isDigit_of_mem_digitsOf member) (by decide)
  | negSucc number =>
      obtain ends | member := List.mem_cons.mp member
      · exact absurd ends (by decide)
      · exact absurd (isDigit_of_mem_digitsOf member) (by decide)

/-- Hex strings of so many digits are all of one length. -/
theorem hexText_prefixFree (digits : Nat) : PrefixFree (fun number : Nat => number < 16 ^ digits)
    fun number => (hexText digits number).toList ++ [')'] := by
  refine .before (.of_length ?_ ?_) _
  · intro first second less less' same
    refine hexDigits_injective less less' ?_
    simpa [hexText] using same
  · intro first second _ _
    simp [hexText, length_hexDigits]

/-- A quote in a string literal does not end it. -/
theorem quoted_prefixFree : PrefixFree (fun _ : String => True) fun value =>
    quote :: (escaped quote value.toList ++ [quote, ')']) := by
  have free := (@escaped_prefixFree Char _ quote ')' (by decide)).after [quote]
  exact free.comap (fun _ _ => String.toList_inj.mp) fun _ _ => trivial

/-- A literal tells its type by how it starts, and its value by what follows. -/
theorem literal_prefixFree :
    PrefixFree (fun value => literal value ≠ none) fun value => (literal value).getD [] := by
  intro first second rest rest' written written' same
  cases first with
  | str value =>
      cases second with
      | str other =>
          obtain ⟨rfl, later⟩ :=
            quoted_prefixFree.after "str(".toList value other rest rest' trivial trivial same
          exact ⟨rfl, later⟩
      | bytes other => exact absurd rfl written'
      | _ => simp [literal] at same
  | i32 value =>
      cases second with
      | i32 other =>
          obtain ⟨number, later⟩ :=
            signedDigitsOf_prefixFree.after "i32(".toList _ _ rest rest' trivial trivial same
          exact ⟨by rw [BitVec.toInt_inj.mp number], later⟩
      | bytes other => exact absurd rfl written'
      | _ => simp [literal] at same
  | u64 value =>
      cases second with
      | u64 other =>
          obtain ⟨number, later⟩ :=
            digitsOf_prefixFree.after "u64(".toList _ _ rest rest' trivial trivial same
          exact ⟨by rw [BitVec.toNat_inj.mp number], later⟩
      | bytes other => exact absurd rfl written'
      | _ => simp [literal] at same
  | addr value =>
      cases second with
      | addr other =>
          obtain ⟨number, later⟩ := (hexText_prefixFree 40).after "addr(".toList _ _ rest rest'
            value.isLt other.isLt same
          exact ⟨by rw [BitVec.toNat_inj.mp number], later⟩
      | bytes other => exact absurd rfl written'
      | _ => simp [literal] at same
  | key value =>
      cases second with
      | key other =>
          obtain ⟨number, later⟩ := (hexText_prefixFree 64).after "key(".toList _ _ rest rest'
            value.isLt other.isLt same
          exact ⟨by rw [BitVec.toNat_inj.mp number], later⟩
      | bytes other => exact absurd rfl written'
      | _ => simp [literal] at same
  | bytes value => exact absurd rfl written

/-- An attribute's name that is none of the node's own and ends at the blank. -/
def Condition.Named : Condition → Prop
  | .attr name _ => ' ' ∉ name.toList ∧ name.toList.head? ≠ some '$'
  | _ => True

/-- A condition on an attribute, of a name and a value. -/
theorem attr_prefixFree : PrefixFree
    (fun both : String × AttributeValue => ' ' ∉ both.1.toList ∧ literal both.2 ≠ none)
    fun both => (both.1.toList ++ [' ']) ++ ("= ".toList ++ (literal both.2).getD []) :=
  have names : PrefixFree (fun name : String => ' ' ∉ name.toList) fun name =>
      name.toList ++ [' '] :=
    .terminated (fun _ _ _ _ => String.toList_inj.mp) fun _ unmarked => unmarked
  names.andThen (literal_prefixFree.after "= ".toList)

/-- A condition on an attribute does not start like one on the entity. -/
theorem Condition.attr_starts {name : String} {value : AttributeValue} {rest rest' : List Char}
    (named : (Condition.attr name value).Named)
    (written : (Condition.attr name value).text ≠ none) :
    (Condition.attr name value).text.getD [] ++ rest ≠ '$' :: rest' := by
  intro same
  obtain ⟨text, isText⟩ : ∃ text, literal value = some text := by
    refine Option.ne_none_iff_exists'.mp fun nothing => written ?_
    simp [Condition.text, nothing]
  simp only [Condition.text, isText, Option.map_some, Option.getD_some, List.append_assoc] at same
  cases letters : name.toList with
  | nil => simp [letters] at same
  | cons letter more =>
      rw [letters, List.cons_append] at same
      exact named.2 (by rw [letters, List.head?_cons, (List.cons.inj same).1])

/-- A condition tells what it is about, and where it ends. -/
theorem Condition.text_prefixFree :
    PrefixFree (fun condition : Condition => condition.text ≠ none ∧ condition.Named)
      fun condition => condition.text.getD [] := by
  intro first second rest rest' written written' same
  cases first with
  | key entity =>
      cases second with
      | key other =>
          obtain ⟨number, later⟩ :=
            (hexText_prefixFree 64).after "$key = key(".toList _ _ rest rest'
              entity.isLt other.isLt same
          exact ⟨by rw [BitVec.toNat_inj.mp number], later⟩
      | attr name value => exact absurd same.symm (attr_starts written'.2 written'.1)
      | _ => simp [Condition.text] at same
  | creator writer =>
      cases second with
      | creator other =>
          obtain ⟨number, later⟩ :=
            (hexText_prefixFree 40).after "$creator = addr(".toList _ _ rest rest'
              writer.isLt other.isLt same
          exact ⟨by rw [BitVec.toNat_inj.mp number], later⟩
      | attr name value => exact absurd same.symm (attr_starts written'.2 written'.1)
      | _ => simp [Condition.text] at same
  | attr name value =>
      cases second with
      | attr other value' =>
          have text : ∀ {name value}, (Condition.attr name value).text ≠ none →
              literal value ≠ none ∧ (Condition.attr name value).text.getD [] =
                (name.toList ++ [' ']) ++ ("= ".toList ++ (literal value).getD []) := by
            intro name value written
            cases isText : literal value with
            | none => exact absurd (by simp [Condition.text, isText]) written
            | some text => exact ⟨Option.some_ne_none text, by simp [Condition.text, isText]⟩
          change (Condition.attr name value).text.getD [] ++ rest =
            (Condition.attr other value').text.getD [] ++ rest' at same
          obtain ⟨isText, spelled⟩ := text written.1
          obtain ⟨isText', spelled'⟩ := text written'.1
          rw [spelled, spelled'] at same
          obtain ⟨sameBoth, later⟩ := attr_prefixFree (name, value) (other, value') rest rest'
            ⟨written.2.1, isText⟩ ⟨written'.2.1, isText'⟩ same
          obtain ⟨rfl, rfl⟩ := Prod.mk.inj sameBoth
          exact ⟨rfl, later⟩
      | _ => exact absurd same (attr_starts written.2 written.1)
  | expiresAfter head =>
      cases second with
      | expiresAfter other =>
          obtain ⟨number, later⟩ :=
            digitsOf_prefixFree.after "$expiresAt > u64(".toList _ _ rest rest'
              trivial trivial same
          exact ⟨by rw [BitVec.toNat_inj.mp number], later⟩
      | attr name value => exact absurd same.symm (attr_starts written'.2 written'.1)
      | _ => simp [Condition.text] at same
  | expiresBy block =>
      cases second with
      | expiresBy other =>
          obtain ⟨number, later⟩ :=
            digitsOf_prefixFree.after "$expiresAt <= u64(".toList _ _ rest rest'
              trivial trivial same
          exact ⟨by rw [BitVec.toNat_inj.mp number], later⟩
      | attr name value => exact absurd same.symm (attr_starts written'.2 written'.1)
      | _ => simp [Condition.text] at same

/-- A query whose conditions all have texts, and what its own text is made of. -/
theorem Query.text_parts {query : Query} {text : String} (isText : query.text = some text) :
    (∀ condition ∈ query.conditions, condition.text ≠ none) ∧
      text.toList = " AND ".toList.intercalate
        (query.conditions.map fun condition => condition.text.getD []) := by
  obtain ⟨texts, areTexts, rfl⟩ := Option.map_eq_some_iff.mp isText
  have parts : ∀ {conditions : List Condition} {texts},
      conditions.mapM Condition.text = some texts →
      (∀ condition ∈ conditions, condition.text ≠ none) ∧
        texts = conditions.map fun condition => condition.text.getD [] := by
    intro conditions
    induction conditions with
    | nil =>
        intro texts areTexts
        exact ⟨fun condition member => absurd member List.not_mem_nil, by simpa using areTexts.symm⟩
    | cons condition conditions ih =>
        intro texts areTexts
        rw [List.mapM_cons] at areTexts
        obtain ⟨text, isText, areTexts⟩ := Option.bind_eq_some_iff.mp areTexts
        obtain ⟨more, areMore, isAll⟩ := Option.bind_eq_some_iff.mp areTexts
        obtain ⟨written, areParts⟩ := ih areMore
        refine ⟨fun each member => ?_, ?_⟩
        · obtain rfl | member := List.mem_cons.mp member
          · simp [isText]
          · exact written each member
        · rw [List.map_cons, isText, Option.getD_some, ← areParts]
          exact (Option.some.inj isAll).symm
  obtain ⟨written, areParts⟩ := parts areTexts
  exact ⟨written, by rw [String.toList_ofList, areParts]⟩

/-- A query's text tells its conditions, whatever the strings in them hold. -/
theorem Query.told_by_text {first second : Query} {text : String}
    (named : ∀ condition ∈ first.conditions, condition.Named)
    (named' : ∀ condition ∈ second.conditions, condition.Named)
    (isText : first.text = some text) (isText' : second.text = some text) :
    first.conditions = second.conditions := by
  obtain ⟨written, parts⟩ := text_parts isText
  obtain ⟨written', parts'⟩ := text_parts isText'
  refine Condition.text_prefixFree.intercalate_injective
    (show " AND ".toList ≠ [] from List.cons_ne_nil _ _) ?_
    (fun condition member => ⟨written condition member, named condition member⟩)
    (fun condition member => ⟨written' condition member, named' condition member⟩)
    (parts.symm.trans parts')
  intro condition isValid nothing
  cases condition with
  | attr name value =>
      obtain ⟨text, isText⟩ := Option.ne_none_iff_exists'.mp isValid.1
      rw [isText, Option.getD_some] at nothing
      obtain ⟨spelled, -, isSpelled⟩ := Option.map_eq_some_iff.mp (nothing ▸ isText)
      simp at isSpelled
  | _ => simp [Condition.text] at nothing

/-- A quantity reads back as the number. -/
theorem parseU64_quantity (number : BitVec 64) :
    AttributeValue.parseU64 (.string (quantity number.toNat)) = some number := by
  have marked : (quantity number.toNat).toList = '0' :: 'x' :: Nat.toDigits 16 number.toNat := by
    simp [quantity]
  -- No digit is a sign.
  have unsigned : ∀ more, Nat.toDigits 16 number.toNat ≠ '+' :: more := by
    intro more same
    have spelled := ofHexDigits?_toDigits number.toNat
    rw [same, ofHexDigits?, show hexDigit? '+' = none by decide] at spelled
    cases spelled
  simp only [AttributeValue.parseU64, marked, parseDigits]
  rw [spelledHex, if_neg (by simp [Nat.toDigits_ne_nil]), ofHexDigits?_toDigits, Option.bind_some,
    if_pos number.isLt, BitVec.ofNat_toNat, BitVec.setWidth_eq]

/-- What is asked of the node tells the query: its conditions, and the block it is answered at. -/
theorem Query.told_by_request {first second : Query} {params : JsonValue}
    (named : ∀ condition ∈ first.conditions, condition.Named)
    (named' : ∀ condition ∈ second.conditions, condition.Named)
    (isAsked : first.pageParams = some params) (isAsked' : second.pageParams = some params) :
    first = second := by
  obtain ⟨text, isText, rfl⟩ := Option.map_eq_some_iff.mp isAsked
  obtain ⟨text', isText', same⟩ := Option.map_eq_some_iff.mp isAsked'
  obtain ⟨sameText, sameOptions⟩ := by simpa using same
  have sameConditions := told_by_text named named' isText (sameText ▸ isText')
  have samePinned : first.pinned = second.pinned := by
    cases isPinned : first.pinned with
    | none =>
        cases isPinned' : second.pinned with
        | none => rfl
        | some block => simp [isPinned, isPinned'] at sameOptions
    | some block =>
        cases isPinned' : second.pinned with
        | none => simp [isPinned, isPinned'] at sameOptions
        | some other =>
            have sameQuantity : quantity other.toNat = quantity block.toNat := by
              simpa [isPinned, isPinned'] using sameOptions
            have read := parseU64_quantity other
            rw [sameQuantity, parseU64_quantity] at read
            exact read
  cases first
  cases second
  rw [Query.mk.injEq]
  exact ⟨sameConditions, samePinned⟩

/-- What a count is asked with tells the conditions. -/
theorem Query.told_by_count {first second : Query} {params : JsonValue}
    (named : ∀ condition ∈ first.conditions, condition.Named)
    (named' : ∀ condition ∈ second.conditions, condition.Named)
    (isAsked : first.countParams = some params) (isAsked' : second.countParams = some params) :
    first.conditions = second.conditions := by
  obtain ⟨text, isText, rfl⟩ := Option.map_eq_some_iff.mp isAsked
  obtain ⟨text', isText', same⟩ := Option.map_eq_some_iff.mp isAsked'
  have sameText : text' = text := by simpa using same
  exact told_by_text named named' isText (sameText ▸ isText')

/-- A query with a quote and a joining word in a string. -/
def awkward : Query :=
  ((Query.kind "a").attrStr "state" "b') AND v = i32(1").atBlock 16

theorem awkward_named : ∀ condition ∈ awkward.conditions, condition.Named := by
  intro condition member
  have cases : condition = .attr "kind" (.str "a") ∨ condition = .attr "v" (.i32 1) ∨
      condition = .attr "state" (.str "b') AND v = i32(1") := by
    simpa [awkward, Query.kind, Query.attrStr, Query.attr, Query.push, Query.atBlock,
      SCHEMA_VERSION] using member
  obtain rfl | rfl | rfl := cases
  · exact ⟨by decide, by decide⟩
  · exact ⟨by decide, by decide⟩
  · exact ⟨by decide, by decide⟩

theorem told_by_request_awkward : awkward.pageParams.isSome = true ∧
    awkward = ((Query.kind "a").atBlock 16).attrStr "state" "b') AND v = i32(1" := by
  have isAsked : awkward.pageParams = some (awkward.pageParams.get rfl) := rfl
  exact ⟨rfl, Query.told_by_request awkward_named awkward_named isAsked isAsked⟩

end Codec
end CommunityLb
