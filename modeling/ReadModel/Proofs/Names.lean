import ReadModel.Proofs.Tokens

/-!
Plain names.

A name is plain (`IsName`) if it consists of parts with a dot between each two, of which each begins
with a letter or an underscore and goes on with letters, digits and underscores. Such a name is one
token of a statement.
-/

namespace ReadModel

/-- Whether a character may begin a part of a name. -/
def IsNameStart (c : Char) : Prop := c.isAlpha = true ∨ c = '_'

/-- Whether a character may stand in a part of a name. -/
def IsNameChar (c : Char) : Prop := c.isAlphanum = true ∨ c = '_'

/-- A letter or an underscore, and then letters, digits and underscores. -/
def IsNamePart (part : List Char) : Prop :=
  ∃ first rest, part = first :: rest ∧ IsNameStart first ∧ ∀ c ∈ rest, IsNameChar c

/-- One or more such parts, with a dot between each two. -/
def IsName (name : String) : Prop :=
  ∃ parts : List (List Char), parts ≠ [] ∧ (∀ part ∈ parts, IsNamePart part) ∧
    name.toList = ['.'].intercalate parts

theorem isNameRest_append {rest : List Char} (more : List Char) (plain : ∀ c ∈ rest, IsNameChar c) :
    isNameRest (rest ++ more) = isNameRest more := by
  induction rest with
  | nil => rfl
  | cons c rest ih =>
    have after := ih fun d inRest => plain d (List.mem_cons_of_mem _ inRest)
    have here : IsNameChar c := plain c (List.mem_cons_self ..)
    have undotted : c ≠ '.' := by
      rintro rfl
      exact absurd here (by simp [IsNameChar])
    simp only [IsNameChar] at here
    simp [isNameRest, undotted, after, here]

theorem isPlainName_append {part : List Char} (more : List Char) (plain : IsNamePart part) :
    isPlainName (part ++ more) = isNameRest more := by
  obtain ⟨first, rest, rfl, start, chars⟩ := plain
  simp only [IsNameStart] at start
  simp [isPlainName, isNameRest_append more chars, start]

theorem isPlainName_intercalate {parts : List (List Char)} (inhabited : parts ≠ [])
    (plain : ∀ part ∈ parts, IsNamePart part) : isPlainName (['.'].intercalate parts) = true := by
  induction parts with
  | nil => exact absurd rfl inhabited
  | cons part parts ih =>
    have here := plain part (List.mem_cons_self ..)
    cases parts with
    | nil => simpa [isNameRest] using isPlainName_append [] here
    | cons next parts =>
      have after := ih (List.cons_ne_nil _ _) fun other inRest =>
        plain other (List.mem_cons_of_mem _ inRest)
      rw [List.intercalate_cons_cons, List.append_assoc, isPlainName_append _ here]
      simpa [isNameRest] using after

mutual

theorem exists_parts_of_isPlainName : ∀ {cs : List Char}, isPlainName cs = true →
    ∃ part parts, IsNamePart part ∧ (∀ other ∈ parts, IsNamePart other) ∧
      cs = ['.'].intercalate (part :: parts)
  | [], plain => nomatch plain
  | c :: cs, plain => by
    simp only [isPlainName, Bool.and_eq_true, Bool.or_eq_true, beq_iff_eq] at plain
    obtain ⟨rest, parts, chars, others, rfl⟩ := exists_parts_of_isNameRest plain.2
    refine ⟨c :: rest, parts, ⟨c, rest, rfl, plain.1, chars⟩, others, ?_⟩
    cases parts with
    | nil => simp
    | cons next parts => simp

theorem exists_parts_of_isNameRest : ∀ {cs : List Char}, isNameRest cs = true →
    ∃ rest parts, (∀ c ∈ rest, IsNameChar c) ∧ (∀ other ∈ parts, IsNamePart other) ∧
      cs = ['.'].intercalate (rest :: parts)
  | [], _ => ⟨[], [], nofun, nofun, rfl⟩
  | c :: cs, plain => by
    by_cases dot : c = '.'
    · simp only [isNameRest, dot, if_pos] at plain
      obtain ⟨part, parts, first, others, rfl⟩ := exists_parts_of_isPlainName plain
      refine ⟨[], part :: parts, nofun, ?_, by simp [dot]⟩
      exact List.forall_mem_cons.mpr ⟨first, others⟩
    · simp only [isNameRest, dot, if_false, Bool.and_eq_true, Bool.or_eq_true, beq_iff_eq] at plain
      obtain ⟨rest, parts, chars, others, rfl⟩ := exists_parts_of_isNameRest plain.2
      refine ⟨c :: rest, parts, List.forall_mem_cons.mpr ⟨plain.1, chars⟩, others, ?_⟩
      cases parts with
      | nil => simp
      | cons next parts => simp

end

theorem isPlainName_iff (name : String) : isPlainName name.toList = true ↔ IsName name := by
  constructor
  · intro plain
    obtain ⟨part, parts, first, others, same⟩ := exists_parts_of_isPlainName plain
    exact ⟨part :: parts, List.cons_ne_nil _ _, List.forall_mem_cons.mpr ⟨first, others⟩, same⟩
  · rintro ⟨parts, inhabited, plain, same⟩
    rw [same]
    exact isPlainName_intercalate inhabited plain

/-- The characters of a name belong to words, and a dollar sign is not among them. -/
theorem IsNameChar.isWordChar {c : Char} (char : IsNameChar c) : isWordChar c = true ∧ c ≠ '$' := by
  refine ⟨?_, ?_⟩
  · rcases char with letter | rfl
    · simp [ReadModel.isWordChar, letter]
    · rfl
  · rintro rfl
    exact absurd char (by simp [IsNameChar])

theorem IsNamePart.chars {part : List Char} (plain : IsNamePart part) :
    ∀ c ∈ part, IsNameChar c := by
  obtain ⟨first, rest, rfl, start, chars⟩ := plain
  refine List.forall_mem_cons.mpr ⟨?_, chars⟩
  rcases start with letter | rfl
  · exact .inl (by simp [Char.isAlphanum, letter])
  · exact .inr rfl

theorem IsName.ne_nil {name : String} (plain : IsName name) : name.toList ≠ [] := by
  intro empty
  have accepted := (isPlainName_iff name).mpr plain
  rw [empty] at accepted
  cases accepted

theorem IsName.chars {name : String} (plain : IsName name) :
    ∀ c ∈ name.toList, IsNameChar c ∨ c = '.' := by
  obtain ⟨parts, -, each, same⟩ := plain
  rw [same]
  refine forall_mem_intercalate ?_ fun part here c inPart => .inl ((each part here).chars c inPart)
  exact List.forall_mem_singleton.mpr (.inr rfl)

/-- A plain name is one token, without a dollar sign. -/
theorem IsName.isWord {name : String} (plain : IsName name) :
    ∀ c ∈ name.toList, ReadModel.isWordChar c = true ∧ c ≠ '$' := by
  intro c here
  rcases plain.chars c here with char | rfl
  · exact char.isWordChar
  · exact ⟨rfl, by decide⟩

theorem IsName.tokens {name : String} (plain : IsName name) : sqlTokens name = [name] :=
  sqlTokens_of_word plain.ne_nil fun c here => (plain.isWord c here).1

theorem sqlTokens_names {names : List String} (plain : ∀ name ∈ names, IsName name) :
    sqlTokens (", ".intercalate names) = [","].intercalate (names.map ([·])) := by
  have each : names.map sqlTokens = names.map ([·]) :=
    List.map_congr_left fun name here => (plain name here).tokens
  rw [sqlTokens_intercalate names rfl rfl, each]
  rfl

theorem SqlToken.ofText_name {name : String} (plain : IsName name) : ofText name = [word name] := by
  rw [ofText, plain.tokens, List.map_singleton]

theorem IsName.unmarked {name : String} (plain : IsName name) :
    (SqlToken.word name).Unmarked :=
  fun dollar => (plain.isWord '$' dollar).2 rfl

end ReadModel
