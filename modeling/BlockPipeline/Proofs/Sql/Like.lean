import BlockPipeline.Proofs.Sql.Template
import Mathlib.Data.List.Infix

set_option autoImplicit false

/-! # What a filter for a contained text selects

In a pattern of SQL a percent sign stands for any text, an underscore for any one character, and every
other character for itself (`Like`). A filter puts its value between two percent signs as it is. So it
selects the texts that hold some text of which the value is a pattern, and this comes to the texts that
hold the value itself if and only if the value has neither of the two signs. -/

namespace BlockPipeline.Sql

/-! ## Patterns -/

/-- The text is of the pattern. -/
inductive Like : List Char → List Char → Prop where
  | nil : Like [] []
  /-- A percent sign stands for any text. -/
  | percent {pattern text : List Char} (front : List Char) (h : Like pattern text) :
      Like ('%' :: pattern) (front ++ text)
  /-- An underscore stands for any one character. -/
  | underscore {pattern text : List Char} (c : Char) (h : Like pattern text) :
      Like ('_' :: pattern) (c :: text)
  /-- Every other character stands for itself. -/
  | char {c : Char} {pattern text : List Char} (hpercent : c ≠ '%') (hunderscore : c ≠ '_')
      (h : Like pattern text) : Like (c :: pattern) (c :: text)

/-- Is the text of the pattern? Behind a percent sign the rest may begin at every place. -/
def like : List Char → List Char → Bool
  | [], text => text.isEmpty
  | p :: pattern, text =>
    if p = '%' then text.tails.any (like pattern)
    else match text with
      | [] => false
      | c :: rest => (p == '_' || p == c) && like pattern rest

variable {pattern behind text : List Char}

theorem like_iff : like pattern text = true ↔ Like pattern text := by
  constructor
  · intro h
    induction pattern generalizing text with
    | nil =>
      rw [List.isEmpty_iff.1 h]
      exact .nil
    | cons p pattern ih =>
      unfold like at h
      split at h
      · next hp =>
        obtain ⟨rest, hrest, hlike⟩ := List.any_eq_true.1 h
        obtain ⟨front, rfl⟩ := (List.mem_tails _ _).1 hrest
        rw [hp]
        exact .percent front (ih hlike)
      · next hp =>
        split at h
        · cases h
        · next c rest =>
          obtain ⟨hc, hlike⟩ := Bool.and_eq_true_iff.1 h
          by_cases hone : p = '_'
          · rw [hone]
            exact .underscore c (ih hlike)
          · obtain rfl : p = c := by simpa [hone] using hc
            exact .char hp hone (ih hlike)
  · intro h
    induction h with
    | nil => rfl
    | @percent pattern text front h ih =>
      unfold like
      rw [if_pos rfl, List.any_eq_true]
      exact ⟨text, (List.mem_tails _ _).2 (List.suffix_append front text), ih⟩
    | underscore c h ih => simp [like, ih]
    | char hpercent hunderscore h ih => simp [like, hpercent, ih]

instance : Decidable (Like pattern text) := decidable_of_iff _ like_iff

theorem like_percent (text : List Char) : Like ['%'] text := by
  have h := Like.percent text Like.nil
  rwa [List.append_nil] at h

/-- Of two patterns in a row each stands for its part of the text. -/
theorem like_append :
    Like (pattern ++ behind) text ↔ ∃ first second, text = first ++ second ∧
      Like pattern first ∧ Like behind second := by
  constructor
  · intro h
    induction pattern generalizing text with
    | nil => exact ⟨[], text, rfl, .nil, h⟩
    | cons p pattern ih =>
      cases h with
      | percent front h =>
        obtain ⟨first, second, rfl, hfirst, hsecond⟩ := ih h
        exact ⟨front ++ first, second, (List.append_assoc _ _ _).symm, .percent front hfirst, hsecond⟩
      | underscore c h =>
        obtain ⟨first, second, rfl, hfirst, hsecond⟩ := ih h
        exact ⟨c :: first, second, rfl, .underscore c hfirst, hsecond⟩
      | char hpercent hunderscore h =>
        obtain ⟨first, second, rfl, hfirst, hsecond⟩ := ih h
        exact ⟨p :: first, second, rfl, .char hpercent hunderscore hfirst, hsecond⟩
  · rintro ⟨first, second, rfl, hfirst, hsecond⟩
    induction hfirst with
    | nil => exact hsecond
    | percent front h ih =>
      rw [List.append_assoc]
      exact .percent front ih
    | underscore c h ih => exact .underscore c ih
    | char hpercent hunderscore h ih => exact .char hpercent hunderscore ih

/-- A pattern between two percent signs is looked for everywhere in the text. -/
theorem like_between :
    Like ('%' :: (pattern ++ ['%'])) text ↔ ∃ part, part <:+: text ∧ Like pattern part := by
  constructor
  · intro h
    have happend : Like (['%'] ++ (pattern ++ ['%'])) text := h
    obtain ⟨front, rest, rfl, -, hrest⟩ := like_append.1 happend
    obtain ⟨part, back, rfl, hpart, -⟩ := like_append.1 hrest
    exact ⟨part, ⟨front, back, List.append_assoc _ _ _⟩, hpart⟩
  · rintro ⟨part, ⟨front, back, rfl⟩, hpart⟩
    rw [List.append_assoc]
    exact .percent front (like_append.2 ⟨part, back, rfl, hpart, like_percent back⟩)

/-- A pattern without wildcards: only the pattern itself is of it. -/
def IsLiteral (pattern : List Char) : Prop := ∀ c ∈ pattern, c ≠ '%' ∧ c ≠ '_'

theorem IsLiteral.like_iff_eq (h : IsLiteral pattern) : Like pattern text ↔ text = pattern := by
  induction pattern generalizing text with
  | nil =>
    constructor
    · intro hlike
      cases hlike
      rfl
    · rintro rfl
      exact .nil
  | cons p pattern ih =>
    obtain ⟨⟨hpercent, hunderscore⟩, hpattern⟩ := List.forall_mem_cons.1 h
    constructor
    · intro hlike
      cases hlike with
      | percent front hlike => exact absurd rfl hpercent
      | underscore c hlike => exact absurd rfl hunderscore
      | char _ _ hlike => rw [(ih hpattern).1 hlike]
    · rintro rfl
      exact .char hpercent hunderscore ((ih hpattern).2 rfl)

/-- A text of the pattern that has neither sign: nothing stands in place of a percent sign, and a
    letter in place of an underscore. -/
def sample (pattern : List Char) : List Char :=
  pattern.flatMap fun c => if c = '%' then [] else if c = '_' then ['x'] else [c]

theorem like_sample (pattern : List Char) : Like pattern (sample pattern) := by
  induction pattern with
  | nil => exact .nil
  | cons p pattern ih =>
    rw [sample, List.flatMap_cons]
    split
    · next hp =>
      rw [hp]
      exact .percent [] ih
    · split
      · next hp =>
        rw [hp]
        exact .underscore 'x' ih
      · next hpercent hunderscore => exact .char hpercent hunderscore ih

theorem isLiteral_sample (pattern : List Char) : IsLiteral (sample pattern) := by
  intro c hc
  obtain ⟨d, -, hd⟩ := List.mem_flatMap.1 hc
  split at hd
  · cases hd
  · split at hd
    · obtain rfl := List.mem_singleton.1 hd
      decide
    · next hpercent hunderscore =>
      obtain rfl := List.mem_singleton.1 hd
      exact ⟨hpercent, hunderscore⟩

/-- To look for the pattern is to look for itself exactly if it has no wildcards. -/
theorem isLiteral_iff : IsLiteral pattern ↔
    ∀ text, (∃ part, part <:+: text ∧ Like pattern part) ↔ pattern <:+: text := by
  constructor
  · intro h text
    simp only [h.like_iff_eq, exists_eq_right]
  · intro h c hc
    -- the sample holds a text of the pattern, so it holds the pattern, but it has no wildcards
    have hfound := (h (sample pattern)).1 ⟨_, List.infix_rfl, like_sample pattern⟩
    exact isLiteral_sample pattern c (hfound.subset hc)

/-! ## The condition of a statement -/

/-- A condition on the texts of a column: that they are of a pattern, or that they are not. -/
structure LikeCondition where
  column : String
  negated : Bool
  pattern : String
  deriving DecidableEq

/-- Does a text meet the condition? -/
def LikeCondition.Holds (condition : LikeCondition) (text : String) : Prop :=
  if condition.negated then ¬ Like condition.pattern.toList text.toList
  else Like condition.pattern.toList text.toList

/-- The condition that the tokens say. -/
def likeConditionOf : List Piece → Option LikeCondition
  | [.name column, .word "LIKE", .text pattern] => some ⟨column, false, pattern⟩
  | [.name column, .word "NOT", .word "LIKE", .text pattern] => some ⟨column, true, pattern⟩
  | _ => none

/-- The condition of a statement: what stands behind its first `WHERE`. -/
def likeCondition? (sql : String) : Option LikeCondition :=
  likeConditionOf ((tokens sql).dropWhile (· ≠ .word "WHERE")).tail

/-- The statement has a condition on a column, and selects rows with the text in that column. -/
def Selects (sql text : String) : Prop :=
  ∃ condition, likeCondition? sql = some condition ∧ condition.Holds text

variable {column : String} {value : FilterValue} {input output : TableName}

/-- A reserved word in a statement is no table. -/
theorem tablePiece_ne {word : String} (h : isBare ⟨word⟩ = false) (name : TableName) :
    tablePiece name ≠ .word word := by
  unfold tablePiece
  split
  · next hbare =>
    intro heq
    obtain rfl := Piece.word.inj heq
    rw [hbare] at h
    cases h
  · intro heq
    cases heq

theorem tokens_where (config : FilterConfig) (input output : TableName) :
    ((tokens (compile (.filter config) input output).text).dropWhile (· ≠ .word "WHERE")).tail =
      .name config.column :: comparisonTemplate config.value config.operator := by
  have hreserved : isBare ⟨"WHERE"⟩ = false := by decide +kernel
  have hinput := tablePiece_ne hreserved input
  have houtput := tablePiece_ne hreserved output
  rw [tokens_compile]
  simp [template, making, words, reading, List.dropWhile, hinput, houtput]

theorem likeCondition?_contains : likeCondition?
    (compile (.filter ⟨column, .contains, some value⟩) input output).text =
      some ⟨column, false, "%" ++ value.plainText ++ "%"⟩ := by
  rw [likeCondition?, tokens_where]
  rfl

theorem likeCondition?_notContains : likeCondition?
    (compile (.filter ⟨column, .notContains, some value⟩) input output).text =
      some ⟨column, true, "%" ++ value.plainText ++ "%"⟩ := by
  rw [likeCondition?, tokens_where]
  rfl

theorem toList_between (value : String) :
    ("%" ++ value ++ "%").toList = '%' :: (value.toList ++ ['%']) := by
  rw [String.toList_append, String.toList_append]
  rfl

/-- A filter for a contained text selects the texts that hold a text of the value as a pattern. -/
theorem selects_contains (text : String) :
    Selects (compile (.filter ⟨column, .contains, some value⟩) input output).text text ↔
      ∃ part, part <:+: text.toList ∧ Like value.plainText.toList part := by
  simp only [Selects, likeCondition?_contains, Option.some_inj, exists_eq_left',
    LikeCondition.Holds, toList_between, like_between]
  rfl

/-- The opposite filter selects the others. -/
theorem selects_notContains (text : String) :
    Selects (compile (.filter ⟨column, .notContains, some value⟩) input output).text text ↔
      ¬ ∃ part, part <:+: text.toList ∧ Like value.plainText.toList part := by
  simp only [Selects, likeCondition?_notContains, Option.some_inj, exists_eq_left',
    LikeCondition.Holds, toList_between, like_between]
  rfl

/-- A filter for a contained text tells the texts that hold the value from those that do not, and the
    opposite filter too, if and only if the value has neither a percent sign nor an underscore. -/
theorem selects_iff_infix (column value : String) (input output : TableName) :
    (∀ text : String,
      (Selects (compile (.filter ⟨column, .contains, some (.text value)⟩) input output).text text ↔
        value.toList <:+: text.toList) ∧
      (Selects (compile (.filter ⟨column, .notContains, some (.text value)⟩) input output).text text ↔
        ¬ value.toList <:+: text.toList)) ↔ IsLiteral value.toList := by
  simp only [selects_contains, selects_notContains, FilterValue.plainText]
  constructor
  · intro h
    refine isLiteral_iff.2 fun text => ?_
    have htext := (h (.ofList text)).1
    rwa [String.toList_ofList] at htext
  · intro h text
    have htext := isLiteral_iff.1 h text.toList
    exact ⟨htext, not_congr htext⟩

/-- A text without the value is selected, since the percent sign in the value stands for any text. -/
theorem selects_without_part :
    Selects (compile (.filter ⟨"price", .contains, some (.text "100%")⟩) ⟨"orders"⟩ ⟨"found"⟩).text
      "1000" ∧
    ¬ Selects (compile (.filter ⟨"price", .notContains, some (.text "100%")⟩) ⟨"orders"⟩
      ⟨"found"⟩).text "1000" ∧
    ¬ "100%".toList <:+: "1000".toList := by
  have hlike : ∃ part, part <:+: "1000".toList ∧ Like "100%".toList part :=
    ⟨"100".toList, by decide, by decide⟩
  refine ⟨(selects_contains "1000").2 hlike, ?_, by decide⟩
  intro hselects
  exact (selects_notContains "1000").1 hselects hlike

end BlockPipeline.Sql
