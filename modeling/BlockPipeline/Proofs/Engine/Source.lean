import BlockPipeline.Proofs.Engine.Memory
import BlockPipeline.Proofs.Separated
import BlockPipeline.Proofs.Text.Doubled

set_option autoImplicit false

/-! # The source of a statement

The engine in memory takes for the input of a statement the name behind its last ` FROM `. It does not
look at quotes. In a compiled statement none of the tokens behind the input holds these words, save
for the names and texts of the configuration (`lastSource?_lateClauses`). -/

namespace BlockPipeline

namespace Memory

/-! ## The source of a statement -/

/-- The words in front of a source. -/
def sourceMark : List Char := " FROM ".toList

/-- The text does not hold the words in front of a source. -/
def Unmarked (text : List Char) : Prop := ¬ sourceMark <:+: text

variable {text name rest behind : List Char} {c q : Char}

theorem lastSource?_append (h : lastSource? behind = some name) (text : List Char) :
    lastSource? (text ++ behind) = some name := by
  induction text with
  | nil => exact h
  | cons c text ih => rw [List.cons_append, lastSource?, ih]

/-- Where the words do not begin, no source is found. -/
theorem lastSource?_cons (h : ¬ sourceMark <+: c :: text) :
    lastSource? (c :: text) = lastSource? text := by
  have hafter : after? " FROM " (c :: text) = none := by
    cases hafter : after? " FROM " (c :: text) with
    | none => rfl
    | some rest => exact absurd (Text.prefix_of_afterStart? hafter) h
  rw [lastSource?, hafter]
  cases lastSource? text with
  | none => rfl
  | some name => rfl

theorem lastSource?_cons_of_ne (h : c ≠ ' ') : lastSource? (c :: text) = lastSource? text := by
  refine lastSource?_cons ?_
  intro hmark
  exact h (List.cons_prefix_cons.1 hmark).1.symm

theorem lastSource?_solid (h : ' ' ∉ text) (rest : List Char) :
    lastSource? (text ++ rest) = lastSource? rest := by
  induction text with
  | nil => rfl
  | cons c text ih =>
    have hc : c ≠ ' ' := (List.ne_of_not_mem_cons h).symm
    rw [List.cons_append, lastSource?_cons_of_ne hc, ih (List.not_mem_of_not_mem_cons h)]

/-- In a quoted text no source is found, unless the words stand in the text. -/
theorem lastSource?_quoted (hq : q ∉ sourceMark) (h : Unmarked text) (rest : List Char) :
    lastSource? (Text.quoted q text ++ rest) = lastSource? rest := by
  have hblank : q ≠ ' ' := by
    rintro rfl
    exact hq List.mem_cons_self
  rw [Sql.quoted_append, lastSource?_cons_of_ne hblank]
  induction text with
  | nil => exact lastSource?_cons_of_ne hblank
  | cons c text ih =>
    have htext : Unmarked text := fun hmark => h (List.infix_cons hmark)
    rw [Text.doubled]
    split
    · rw [List.cons_append, List.cons_append, lastSource?_cons_of_ne hblank,
        lastSource?_cons_of_ne hblank, ih htext]
    · next hc =>
      rw [List.cons_append, lastSource?_cons, ih htext]
      intro hmark
      have hdoubled : sourceMark <+: Text.doubled q (c :: text) ++ q :: rest := by
        rwa [Text.doubled, if_neg hc]
      exact h (Text.prefix_of_prefix_doubled hq hdoubled).isInfix

/-- The name behind the words is the source, if none is found behind the name. -/
theorem lastSource?_mark (hname : ∀ c ∈ name, isSolid c = true) (hne : name ≠ [])
    (hword : name ≠ "FROM".toList) (hrest : Text.Stops isSolid rest) (h : lastSource? rest = none) :
    lastSource? (' ' :: ("FROM ".toList ++ (name ++ rest))) = some name := by
  have hblank : ' ' ∉ name := by
    intro hmem
    have hsolid := hname ' ' hmem
    cases hsolid
  have hwords : lastSource? (' ' :: (name ++ rest)) = none := by
    rw [lastSource?_cons, lastSource?_solid hblank, h]
    -- the name ends where the words do, so it would be the word itself
    intro hmark
    obtain ⟨after, hafter⟩ := (List.cons_prefix_cons.1 hmark).2
    have htake := hrest.takeWhile_append hname
    rw [← hafter] at htake
    have hfrom : ("FROM".toList ++ (' ' :: after)).takeWhile isSolid = "FROM".toList :=
      Text.Stops.takeWhile_append (Text.stops_cons (by decide) after) (List.all_eq_true.1 (by decide))
    exact hword (htake.symm.trans hfrom)
  have hletters : ' ' ∉ "FROM".toList := by decide
  have hfrom : lastSource? ("FROM ".toList ++ (name ++ rest)) = none :=
    (lastSource?_solid hletters (' ' :: (name ++ rest))).trans hwords
  have hafter : after? " FROM " (' ' :: ("FROM ".toList ++ (name ++ rest))) = some (name ++ rest) :=
    after?_append " FROM " (name ++ rest)
  rw [lastSource?, hfrom, hafter]
  simp only [Option.bind_eq_bind, Option.bind_some, run?_append hne hname hrest]
  rfl

/-! ## Tokens behind the source -/

/-- Whatever follows the text, no source begins in it, nor at a blank in front of it. -/
structure Passed (text : List Char) : Prop where
  last : ∀ rest, lastSource? (text ++ rest) = lastSource? rest
  head : ∀ rest, ¬ "FROM ".toList <+: text ++ rest

namespace Passed

theorem blank (h : Passed text) (rest : List Char) :
    lastSource? (' ' :: (text ++ rest)) = lastSource? rest := by
  rw [lastSource?_cons, h.last]
  intro hmark
  exact h.head rest (List.cons_prefix_cons.1 hmark).2

theorem head_of_ne (hc : c ≠ 'F') (rest : List Char) : ¬ "FROM ".toList <+: c :: rest := by
  intro hfrom
  exact hc (List.cons_prefix_cons.1 hfrom).1.symm

theorem solid (hblank : ' ' ∉ c :: text) (hc : c ≠ 'F') : Passed (c :: text) :=
  ⟨lastSource?_solid hblank, fun rest => head_of_ne hc (text ++ rest)⟩

theorem quoted (hq : q ∉ sourceMark) (h : Unmarked text) : Passed (Text.quoted q text) := by
  refine ⟨lastSource?_quoted hq h, ?_⟩
  intro rest
  rw [Sql.quoted_append]
  refine head_of_ne ?_ _
  rintro rfl
  exact hq (by decide)

theorem number (n : Json.Number) : Passed (Sql.Token.number n).chars := by
  have hblank := n.blank_not_mem
  obtain ⟨d, cs, htext, hd⟩ := Sql.Numeral.cons n.numeral_text
  rw [Sql.Token.chars]
  rw [n.text_eq_sign, htext] at hblank ⊢
  split
  · rw [if_pos ‹_›] at hblank
    exact solid hblank (by decide)
  · rw [if_neg ‹_›] at hblank
    refine solid hblank ?_
    rintro rfl
    cases hd

theorem append_blank {first second : List Char} (hfirst : Passed first) (hsecond : Passed second) :
    Passed (first ++ ' ' :: second) := by
  constructor
  · intro rest
    rw [List.append_assoc, hfirst.last]
    exact hsecond.blank rest
  · intro rest
    rw [List.append_assoc]
    exact hfirst.head _

theorem append {first second : List Char} (hfirst : Passed first) (hsecond : Passed second) :
    Passed (first ++ second) := by
  constructor
  · intro rest
    rw [List.append_assoc, hfirst.last, hsecond.last]
  · intro rest
    rw [List.append_assoc]
    exact hfirst.head _

theorem clause {token : Sql.Token} {tokens : Sql.Clause}
    (h : ∀ other ∈ token :: tokens, Passed other.chars) : Passed (Sql.Clause.chars (token :: tokens)) := by
  induction tokens generalizing token with
  | nil => exact h token List.mem_cons_self
  | cons next tokens ih =>
    obtain ⟨htoken, htokens⟩ := List.forall_mem_cons.1 h
    have hrest := ih htokens
    rw [Sql.Clause.chars, List.append_assoc]
    split
    · exact htoken.append_blank hrest
    · exact htoken.append hrest

theorem word {w : String} (hblank : ' ' ∉ w.toList) (hhead : w.toList.head?.any (· ≠ 'F') = true) :
    Passed w.toList := by
  cases htext : w.toList with
  | nil =>
    rw [htext] at hhead
    cases hhead
  | cons c cs =>
    rw [htext] at hblank hhead
    exact solid hblank (of_decide_eq_true hhead)

/-- The one word of conditions that begins as the words in front of a source do. -/
theorem false_word : Passed "FALSE".toList := by
  refine ⟨lastSource?_solid (by decide), ?_⟩
  intro rest hmark
  obtain ⟨-, hrest⟩ := List.cons_prefix_cons.1 hmark
  obtain ⟨hletter, -⟩ := List.cons_prefix_cons.1 hrest
  exact absurd hletter (by decide)

theorem quotedName {n : String} (h : Unmarked n.toList) : Passed (Sql.Token.name n).chars :=
  quoted (by decide) h

theorem quotedText {value : String} (h : Unmarked value.toList) :
    Passed (Sql.Token.text value).chars :=
  quoted (by decide) h

end Passed

end Memory

/-- The texts of a configuration that stand behind the input in its statement. -/
def BlockConfig.lateTexts : BlockConfig → List String
  | .filter config =>
    config.column :: match config.value with
      | some (.text value) => [value]
      | _ => []
  | .aggregate config => config.groupBy
  | .sort config => [config.column]
  | .load _ | .chart _ | .insight _ => []

/-- The clauses that stand behind the input. -/
def BlockConfig.lateClauses : BlockConfig → List Sql.Clause
  | .filter config => [.word "WHERE" :: Sql.condition config]
  | .aggregate config => Sql.groupClauses config
  | .sort config => [Sql.keywords ["ORDER", "BY"] ++
      [.name config.column, .word (Sql.directionWord config.direction)]]
  | .load _ | .chart _ | .insight _ => []

namespace Memory

variable {config : BlockConfig}

theorem unmarked_of_solid {text : List Char} (h : ' ' ∉ text) : Unmarked text := by
  intro hmark
  exact h (hmark.subset List.mem_cons_self)

theorem Unmarked.between {value : String} (h : Unmarked value.toList) :
    Unmarked ("%" ++ value ++ "%").toList := by
  rw [String.toList_append, String.toList_append]
  intro hmark
  rcases List.infix_concat_iff.1 hmark with hmark | hmark
  · obtain ⟨front, hfront⟩ := hmark
    have hlast := congrArg List.getLast? hfront
    rw [List.getLast?_concat, List.getLast?_append] at hlast
    cases hlast
  · rcases List.infix_cons_iff.1 hmark with hmark | hmark
    · exact absurd (List.cons_prefix_cons.1 hmark).1 (by decide)
    · exact h hmark

/-- The text of a value holds the words only if the value is a text that does. -/
theorem unmarked_plainText {value : FilterValue}
    (h : ∀ text, value = .text text → Unmarked text.toList) : Unmarked value.plainText.toList := by
  cases value with
  | bool b =>
    cases b with
    | true => exact unmarked_of_solid (by decide)
    | false => exact unmarked_of_solid (by decide)
  | number n => exact unmarked_of_solid n.blank_not_mem
  | text text => exact h text rfl

theorem passed_literal {value : Option FilterValue}
    (h : ∀ text, value = some (.text text) → Unmarked text.toList) :
    Passed (Sql.literal value).chars := by
  cases value with
  | none => exact Passed.word (by decide) (by decide)
  | some value =>
    cases value with
    | bool b =>
      cases b with
      | true => exact Passed.word (by decide) (by decide)
      | false => exact Passed.false_word
    | number n => exact Passed.number n
    | text text => exact Passed.quotedText (h text rfl)

theorem passed_likePattern {value : Option FilterValue}
    (h : ∀ text, value = some (.text text) → Unmarked text.toList) :
    Passed (Sql.likePattern value).chars := by
  cases value with
  | none => exact Passed.quotedText (unmarked_of_solid (by decide))
  | some value =>
    have hvalue := unmarked_plainText fun text htext => h text (congrArg some htext)
    exact Passed.quotedText hvalue.between

theorem passed_condition {config : FilterConfig} (hcolumn : Unmarked config.column.toList)
    (hvalue : ∀ text, config.value = some (.text text) → Unmarked text.toList) :
    ∀ token ∈ Sql.condition config, Passed token.chars := by
  have hlike : Passed (Sql.Token.word "LIKE").chars := Passed.word (by decide) (by decide)
  have hpattern := passed_likePattern hvalue
  have hliteral := passed_literal hvalue
  refine List.forall_mem_cons.2 ⟨Passed.quotedName hcolumn, ?_⟩
  cases config.operator with
  | contains => exact List.forall_mem_cons.2 ⟨hlike, List.forall_mem_singleton.2 hpattern⟩
  | notContains =>
    have hnot : Passed (Sql.Token.word "NOT").chars := Passed.word (by decide) (by decide)
    exact List.forall_mem_cons.2 ⟨hnot,
      List.forall_mem_cons.2 ⟨hlike, List.forall_mem_singleton.2 hpattern⟩⟩
  | _ =>
    have hsymbol {mark : String} (hblank : ' ' ∉ mark.toList)
        (hhead : mark.toList.head?.any (· ≠ 'F') = true) : Passed (Sql.Token.symbol mark).chars :=
      Passed.word hblank hhead
    exact List.forall_mem_cons.2 ⟨hsymbol (by decide) (by decide),
      List.forall_mem_singleton.2 hliteral⟩

/-- If no late text holds the words, no source is found in the clauses behind the input. -/
theorem passed_lateClauses (h : ∀ text ∈ config.lateTexts, Unmarked text.toList) :
    ∀ clause ∈ config.lateClauses, Passed (Sql.Clause.chars clause) := by
  have hby : Passed (Sql.Token.word "BY").chars := Passed.word (by decide) (by decide)
  cases config with
  | load config => simp [BlockConfig.lateClauses]
  | chart config => simp [BlockConfig.lateClauses]
  | insight config => simp [BlockConfig.lateClauses]
  | filter config =>
    obtain ⟨hcolumn, hvalue⟩ := List.forall_mem_cons.1 h
    refine List.forall_mem_singleton.2 (Passed.clause (List.forall_mem_cons.2 ⟨?_, ?_⟩))
    · exact Passed.word (by decide) (by decide)
    · refine passed_condition hcolumn fun text htext => hvalue text ?_
      rw [htext]
      exact List.mem_singleton_self text
  | sort config =>
    have horder : Passed (Sql.Token.word "ORDER").chars := Passed.word (by decide) (by decide)
    have hcolumn : Passed (Sql.Token.name config.column).chars :=
      Passed.quotedName (h config.column List.mem_cons_self)
    have hdirection : Passed (Sql.Token.word (Sql.directionWord config.direction)).chars := by
      cases config.direction with
      | ascending => exact Passed.word (by decide) (by decide)
      | descending => exact Passed.word (by decide) (by decide)
    refine List.forall_mem_singleton.2 (Passed.clause (List.forall_mem_cons.2 ⟨horder, ?_⟩))
    exact List.forall_mem_cons.2 ⟨hby, List.forall_mem_cons.2 ⟨hcolumn,
      List.forall_mem_singleton.2 hdirection⟩⟩
  | aggregate config =>
    have hgroup : Passed (Sql.Token.word "GROUP").chars := Passed.word (by decide) (by decide)
    have hcomma : Passed (Sql.Token.symbol ",").chars := Passed.word (by decide) (by decide)
    intro clause hclause
    simp only [BlockConfig.lateClauses, Sql.groupClauses] at hclause
    split at hclause
    · cases hclause
    · rw [List.mem_singleton.1 hclause]
      refine Passed.clause (List.forall_mem_cons.2 ⟨hgroup, List.forall_mem_cons.2 ⟨hby, ?_⟩⟩)
      intro token htoken
      rcases eq_or_mem_of_mem_intercalate htoken with rfl | ⟨part, hpart, hmem⟩
      · exact hcomma
      · obtain ⟨column, hcolumn, rfl⟩ := List.mem_map.1 hpart
        rw [List.mem_singleton.1 hmem]
        exact Passed.quotedName (h column hcolumn)

theorem lastSource?_lateClauses (h : ∀ text ∈ config.lateTexts, Unmarked text.toList) :
    lastSource? (config.lateClauses.flatMap fun clause => ' ' :: Sql.Clause.chars clause) = none := by
  have hpassed := passed_lateClauses h
  generalize config.lateClauses = clauses at hpassed ⊢
  induction clauses with
  | nil => rfl
  | cons clause clauses ih =>
    obtain ⟨hclause, hclauses⟩ := List.forall_mem_cons.1 hpassed
    rw [List.flatMap_cons, List.cons_append, hclause.blank, ih hclauses]

end Memory

end BlockPipeline
