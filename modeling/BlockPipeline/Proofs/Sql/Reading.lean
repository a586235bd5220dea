import BlockPipeline.Proofs.Number.Numeral
import BlockPipeline.Proofs.Sql.Creation
import BlockPipeline.Proofs.Sql.Pieces
import BlockPipeline.Proofs.Text.Stops

set_option autoImplicit false

/-! # Statements are read back as their tokens

A token is read back as it was meant if what follows it cannot be taken for a part of it. Between two
tokens of a clause stands a blank or a bracket or a comma, so this is always so, and it does not
matter which characters a name or a text holds (`reads_statement`). -/

namespace BlockPipeline.Sql

open Text (Stops stops_cons)

/-! ## What follows a token -/

/-- The text is empty or begins with a blank or a punctuation mark. -/
def Apart (rest : List Char) : Prop := ∀ c ∈ rest.head?, c ∈ [' ', '(', ')', ',', ';']

variable {p : Char → Bool} {taken rest : List Char}

theorem apart_cons {c : Char} (hc : c ∈ [' ', '(', ')', ',', ';']) (rest : List Char) :
    Apart (c :: rest) := by
  intro d hd
  rw [List.head?_cons, Option.mem_some_iff] at hd
  rwa [← hd]

theorem apart_nil : Apart [] := by
  intro c hc
  cases hc

theorem Apart.stops (h : Apart rest) (hp : [' ', '(', ')', ',', ';'].all (!p ·) = true) :
    Stops p rest := by
  intro c hc
  simpa using List.all_eq_true.1 hp c (h c hc)

theorem Apart.head?_ne (h : Apart rest) {c : Char} (hc : c ∉ [' ', '(', ')', ',', ';']) :
    rest.head? ≠ some c := by
  intro hhead
  exact hc (h c hhead)

/-! ## Numbers -/

open Number (AllDigits Numeral)

theorem takeDigits_append_of_stops (htaken : AllDigits taken) (h : Stops Char.isDigit rest) :
    takeDigits (taken ++ rest) = (taken, rest) := by
  rw [takeDigits, h.takeWhile_append htaken, h.dropWhile_append htaken]

theorem takeFraction_append_of_stops {fraction : List Char} (h : Stops Char.isDigit rest)
    (hpoint : rest.head? ≠ some '.')
    (hfraction : fraction = [] ∨ ∃ digits, fraction = '.' :: digits ∧ AllDigits digits) :
    takeFraction (fraction ++ rest) = (fraction, rest) := by
  rcases hfraction with rfl | ⟨digits, rfl, hdigits⟩
  · cases rest with
    | nil => rfl
    | cons c rest =>
      have hc : c ≠ '.' := by simpa using hpoint
      simp [takeFraction, hc]
  · simp [takeFraction, takeDigits_append_of_stops hdigits h]

theorem takeSign_append_of_digits {sign digits : List Char} (hne : digits ≠ [])
    (hdigits : AllDigits digits) (hsign : sign = [] ∨ sign = ['+'] ∨ sign = ['-']) :
    takeSign (sign ++ (digits ++ rest)) = (sign, digits ++ rest) := by
  rcases hsign with rfl | rfl | rfl
  · cases digits with
    | nil => exact absurd rfl hne
    | cons c digits =>
      have hc : c.isDigit = true := hdigits c List.mem_cons_self
      have hplus : c ≠ '+' := by rintro rfl; cases hc
      have hminus : c ≠ '-' := by rintro rfl; cases hc
      simp [takeSign, hplus, hminus]
  · simp [takeSign]
  · simp [takeSign]

theorem takeExponent_append_of_apart {exponent : List Char} (h : Apart rest)
    (hexponent : exponent = [] ∨ ∃ sign digits, exponent = 'e' :: (sign ++ digits) ∧
      (sign = [] ∨ sign = ['+'] ∨ sign = ['-']) ∧ digits ≠ [] ∧ AllDigits digits) :
    takeExponent (exponent ++ rest) = (exponent, rest) := by
  have hstops : Stops Char.isDigit rest := h.stops (by decide)
  rcases hexponent with rfl | ⟨sign, digits, rfl, hsign, hne, hdigits⟩
  · cases rest with
    | nil => rfl
    | cons c rest =>
      have he : c ≠ 'e' := by simpa using h.head?_ne (c := 'e') (by decide)
      have hE : c ≠ 'E' := by simpa using h.head?_ne (c := 'E') (by decide)
      simp [takeExponent, he, hE]
  · simp [takeExponent, takeSign_append_of_digits hne hdigits hsign,
      takeDigits_append_of_stops hdigits hstops, hne]

theorem takeNumber_append_of_apart {text : List Char} (htext : Numeral text) (h : Apart rest) :
    takeNumber (text ++ rest) = (text, rest) := by
  obtain ⟨whole, fraction, exponent, rfl, -, hwhole, hfraction, hexponent⟩ := htext.parts
  have hpoint : (exponent ++ rest).head? ≠ some '.' := by
    rcases hexponent with rfl | ⟨sign, digits, rfl, -⟩
    · exact h.head?_ne (by decide)
    · simp
  have hbehind : Stops Char.isDigit (exponent ++ rest) := by
    rcases hexponent with rfl | ⟨sign, digits, rfl, -⟩
    · exact h.stops (by decide)
    · exact stops_cons rfl _
  have hfirst : Stops Char.isDigit (fraction ++ (exponent ++ rest)) := by
    rcases hfraction with rfl | ⟨digits, rfl, -⟩
    · exact hbehind
    · exact stops_cons rfl _
  simp only [takeNumber, List.append_assoc, takeDigits_append_of_stops hwhole hfirst,
    takeFraction_append_of_stops hbehind hpoint hfraction, takeExponent_append_of_apart h hexponent]

/-! ## The first piece of a text -/

variable {c : Char} {cs : List Char}

theorem pieces_blank (hc : c.isWhitespace = true) : pieces (c :: rest) = .blank c :: pieces rest := by
  rw [pieces, next, if_pos hc]

theorem pieces_comment {line : List Char} (hline : ∀ c ∈ line, isLineEnd c = false)
    (hrest : Stops (!isLineEnd ·) rest) :
    pieces ('-' :: '-' :: (line ++ rest)) = .comment (.ofList ('-' :: '-' :: line)) :: pieces rest := by
  have hall : ∀ c ∈ '-' :: line, (!isLineEnd c) = true := by
    intro c hc
    rcases List.mem_cons.1 hc with rfl | hc
    · rfl
    · simp [hline c hc]
  have htake := hrest.takeWhile_append hall
  have hdrop := hrest.dropWhile_append hall
  rw [List.cons_append] at htake hdrop
  rw [pieces, next, if_neg (by decide), if_pos ⟨rfl, rfl⟩, htake, hdrop]

theorem quoted_append (q : Char) (inside rest : List Char) :
    Text.quoted q inside ++ rest = q :: (Text.doubled q inside ++ q :: rest) := by
  simp [Text.quoted]

theorem pieces_name (name : String) (hrest : rest.head? ≠ some '"') :
    pieces (Text.quoted '"' name.toList ++ rest) = .name name :: pieces rest := by
  rw [quoted_append, pieces]
  simp [next, closing?_doubled hrest]

theorem pieces_text (value : String) (hrest : rest.head? ≠ some '\'') :
    pieces (Text.quoted '\'' value.toList ++ rest) = .text value :: pieces rest := by
  rw [quoted_append, pieces]
  simp [next, closing?_doubled hrest]

/-- Characters of a class that holds no blank, dash or quote. -/
theorem ne_marks_of_class (hc : p c = true)
    (hp : [' ', '\t', '\r', '\n', '-', '"', '\''].all (!p ·) = true) :
    c.isWhitespace = false ∧ c ≠ '-' ∧ c ≠ '"' ∧ c ≠ '\'' := by
  have hne : ∀ d ∈ [' ', '\t', '\r', '\n', '-', '"', '\''], c ≠ d := by
    rintro d hd rfl
    have hno := List.all_eq_true.1 hp c hd
    rw [hc] at hno
    cases hno
  simp only [List.forall_mem_cons] at hne
  obtain ⟨hspace, htab, hreturn, hfeed, hdash, hdouble, hsingle, -⟩ := hne
  exact ⟨by simp [Char.isWhitespace, hspace, htab, hreturn, hfeed], hdash, hdouble, hsingle⟩

theorem pieces_word (hc : isWordStart c = true) (hcs : ∀ d ∈ cs, isWordRest d = true)
    (hrest : Apart rest) : pieces (c :: cs ++ rest) = .word (.ofList (c :: cs)) :: pieces rest := by
  have hstops : Stops isWordRest rest := hrest.stops (by decide)
  obtain ⟨hblank, hdash, hdouble, hsingle⟩ := ne_marks_of_class hc (by decide)
  rw [List.cons_append, pieces]
  simp [next, hblank, hdash, hdouble, hsingle, hc, hstops.takeWhile_append hcs,
    hstops.dropWhile_append hcs]

theorem isWordStart_of_isDigit (hc : c.isDigit = true) : isWordStart c = false := by
  -- the comparisons of codes that the classes stand for
  obtain ⟨-, hle⟩ := Bool.and_eq_true_iff.1 hc
  have hdigit : c.val.toNat ≤ 57 := of_decide_eq_true hle
  have hupper : c.isUpper = false :=
    decide_eq_false fun h => absurd (show 65 ≤ c.val.toNat from h.1) (by omega)
  have hlower : c.isLower = false :=
    Bool.and_eq_false_iff.2 (.inl (decide_eq_false fun h =>
      absurd (show 97 ≤ c.val.toNat from h) (by omega)))
  have hne : c ≠ '_' := by rintro rfl; cases hc
  show (c.isUpper || c.isLower || c == '_') = false
  simp [hupper, hlower, hne]

theorem Numeral.cons {text : List Char} (h : Numeral text) :
    ∃ c cs, text = c :: cs ∧ c.isDigit = true := by
  obtain ⟨whole, fraction, exponent, rfl, hne, hwhole, -⟩ := h.parts
  cases whole with
  | nil => exact absurd rfl hne
  | cons c whole => exact ⟨c, _, rfl, hwhole c List.mem_cons_self⟩

theorem pieces_number {text : List Char} (htext : Numeral text) (hrest : Apart rest) :
    pieces (text ++ rest) = .number (.ofList text) :: pieces rest := by
  have hnumber := takeNumber_append_of_apart htext hrest
  obtain ⟨c, cs, rfl, hc⟩ := Numeral.cons htext
  obtain ⟨hblank, hdash, hdouble, hsingle⟩ := ne_marks_of_class hc (by decide)
  rw [List.cons_append] at hnumber ⊢
  rw [pieces]
  simp [next, hblank, hdash, hdouble, hsingle, isWordStart_of_isDigit hc, hc, hnumber]

/-- The marks of one character in statements. -/
def signs : List Char := ['(', ')', '*', ',', '=', '>', '<']

/-- The operators and punctuation marks that statements may have. -/
def marks : List String := signs.map (fun c => .ofList [c]) ++ pairs.map .ofList

/-- A mark that begins neither an operator of two characters nor a comment stands for itself. -/
theorem pieces_symbol {c : Char} (hc : c ∈ ';' :: '-' :: signs) (hpair : c :: rest.take 1 ∉ pairs)
    (hcomment : ¬ (c = '-' ∧ rest.head? = some '-')) :
    pieces (c :: rest) = .symbol (.ofList [c]) :: pieces rest := by
  have hclass : c.isWhitespace = false ∧ c ≠ '"' ∧ c ≠ '\'' ∧ isWordStart c = false ∧
      c.isDigit = false := by
    simp only [signs, List.mem_cons, List.not_mem_nil, or_false] at hc
    rcases hc with rfl | rfl | rfl | rfl | rfl | rfl | rfl | rfl | rfl <;> decide
  obtain ⟨hblank, hdouble, hsingle, hword, hdigit⟩ := hclass
  rw [pieces, next]
  simp [hblank, hcomment, hdouble, hsingle, hword, hdigit, hpair]

theorem pieces_opening (rest : List Char) : pieces ('(' :: rest) = .symbol "(" :: pieces rest :=
  pieces_symbol (by decide) (by simp [pairs]) (by simp)

theorem pieces_semicolon (rest : List Char) : pieces (';' :: rest) = .symbol ";" :: pieces rest :=
  pieces_symbol (by decide) (by simp [pairs]) (by simp)

theorem pieces_minus (hrest : rest.head? ≠ some '-') :
    pieces ('-' :: rest) = .symbol "-" :: pieces rest :=
  pieces_symbol (by decide) (by simp [pairs]) (by simp [hrest])

/-- Before a blank or a punctuation mark no operator goes on. -/
theorem pieces_sign {c : Char} (hrest : Apart rest) (hc : c ∈ signs) :
    pieces (c :: rest) = .symbol (.ofList [c]) :: pieces rest := by
  have hpair : c :: rest.take 1 ∉ pairs := by
    cases rest with
    | nil => simp [pairs]
    | cons d rest =>
      have hd := hrest d rfl
      simp only [List.mem_cons, List.not_mem_nil, or_false] at hd
      rcases hd with rfl | rfl | rfl | rfl | rfl <;> simp [pairs]
  exact pieces_symbol (List.mem_cons_of_mem _ (List.mem_cons_of_mem _ hc)) hpair fun h =>
    hrest.head?_ne (by decide) h.2

theorem pieces_pair {pair : List Char} (hpair : pair ∈ pairs) (rest : List Char) :
    pieces (pair ++ rest) = .symbol (.ofList pair) :: pieces rest := by
  simp only [pairs, List.mem_cons, List.not_mem_nil, or_false] at hpair
  rcases hpair with rfl | rfl | rfl | rfl | rfl
  all_goals
    rw [List.cons_append, pieces]
    simp [next, isWordStart, pairs]

theorem pieces_mark {mark : String} (hmark : mark ∈ marks) (hrest : Apart rest) :
    pieces (mark.toList ++ rest) = .symbol mark :: pieces rest := by
  rcases List.mem_append.1 hmark with hmark | hmark
  · obtain ⟨c, hc, rfl⟩ := List.mem_map.1 hmark
    rw [String.toList_ofList, List.singleton_append, pieces_sign hrest hc]
  · obtain ⟨pair, hpair, rfl⟩ := List.mem_map.1 hmark
    rw [String.toList_ofList, pieces_pair hpair]

/-! ## Tokens and statements -/

/-- The text is read as these tokens, whatever stands behind it apart from it. -/
structure Reads (text : List Char) (ts : List Piece) : Prop where
  closed : ∀ rest, Apart rest → pieces (text ++ rest) = pieces text ++ pieces rest
  tokens : (pieces text).filter Piece.isToken = ts
  uncommented : ∀ piece ∈ pieces text, piece.isComment = false

theorem Apart.append {text : List Char} (htext : Apart text) (hrest : Apart rest) :
    Apart (text ++ rest) := by
  cases text with
  | nil => exact hrest
  | cons d text => exact htext

namespace Reads

variable {text text' : List Char} {ts us : List Piece}

theorem nil : Reads [] [] := ⟨by simp, by simp, by simp⟩

theorem single {piece : Piece} (hpiece : piece.isToken = true)
    (h : ∀ rest, Apart rest → pieces (text ++ rest) = piece :: pieces rest) :
    Reads text [piece] := by
  have htext : pieces text = [piece] := by simpa using h [] apart_nil
  refine ⟨fun rest hrest => by rw [h rest hrest, htext]; rfl, by simp [htext, hpiece], ?_⟩
  intro p hp
  rw [htext, List.mem_singleton] at hp
  subst hp
  cases p <;> simp_all [Piece.isToken, Piece.isComment]

theorem append (h : Reads text ts) (h' : Reads text' us) (hapart : Apart text') :
    Reads (text ++ text') (ts ++ us) := by
  have hpieces := h.closed text' hapart
  refine ⟨?_, ?_, ?_⟩
  · intro rest hrest
    rw [List.append_assoc, h.closed _ (hapart.append hrest), h'.closed rest hrest, hpieces,
      List.append_assoc]
  · rw [hpieces, List.filter_append, h.tokens, h'.tokens]
  · intro p hp
    rw [hpieces] at hp
    rcases List.mem_append.1 hp with hp | hp
    · exact h.uncommented p hp
    · exact h'.uncommented p hp

/-- A piece more in front. -/
theorem cons {c : Char} {piece : Piece}
    (hpieces : ∀ rest, pieces (c :: (text ++ rest)) = piece :: pieces (text ++ rest))
    (hpiece : piece.isComment = false) (h : Reads text ts) :
    Reads (c :: text) ([piece].filter Piece.isToken ++ ts) := by
  have htext : pieces (c :: text) = piece :: pieces text := by simpa using hpieces []
  refine ⟨?_, ?_, ?_⟩
  · intro rest hrest
    rw [List.cons_append, hpieces, htext, h.closed rest hrest, List.cons_append]
  · rw [htext, ← h.tokens, ← List.filter_append, List.singleton_append]
  · intro p hp
    rw [htext] at hp
    rcases List.mem_cons.1 hp with rfl | hp
    · exact hpiece
    · exact h.uncommented p hp

theorem blank (h : Reads text ts) : Reads (' ' :: text) ts :=
  cons (fun _ => pieces_blank rfl) rfl h

theorem opening (h : Reads text ts) : Reads ('(' :: text) (.symbol "(" :: ts) :=
  cons (fun _ => pieces_opening _) rfl h

end Reads

namespace Token

/-- Words of plain tokens are identifiers, and their symbols those that statements have. Names and
    texts may be any. -/
def isPlain : Token → Bool
  | .word w => TableName.isPlain ⟨w⟩
  | .symbol mark => mark ∈ marks
  | .name _ | .text _ | .number _ => true

/-- What a token is read as. The sign of a number is an operator. -/
def pieces : Token → List Piece
  | .word w => [.word w]
  | .name n => [.name n]
  | .text value => [.text value]
  | .number n =>
    (if n.isNegative then [Piece.symbol "-"] else []) ++ [Piece.number n.unsigned.text]
  | .symbol mark => [.symbol mark]

theorem reads_word {w : String} (h : TableName.isPlain ⟨w⟩ = true) :
    Reads (Token.word w).chars [.word w] := by
  refine Reads.single rfl ?_
  intro rest hrest
  simp only [TableName.isPlain] at h
  split at h
  · cases h
  · next c cs hw =>
      rw [Bool.and_eq_true, List.all_eq_true] at h
      rw [chars, hw, pieces_word h.1 h.2 hrest, ← hw, String.ofList_toList]

theorem reads_number (n : Json.Number) :
    Reads (Token.number n).chars (Token.number n).pieces := by
  have hamount : Reads n.unsigned.text.toList [.number n.unsigned.text] := by
    refine Reads.single rfl ?_
    intro rest hrest
    rw [pieces_number n.numeral_text hrest, String.ofList_toList]
  rw [chars, n.text_eq_sign, pieces]
  cases n.isNegative with
  | false => exact hamount
  | true =>
    -- a digit follows the sign, so the two do not begin a comment
    obtain ⟨c, cs, htext, hdigit⟩ := Numeral.cons n.numeral_text
    refine Reads.cons (fun rest => pieces_minus ?_) rfl hamount
    show (n.unsigned.text.toList ++ rest).head? ≠ some '-'
    rw [htext, List.cons_append, List.head?_cons]
    rintro ⟨⟩
    cases hdigit

theorem reads {token : Token} (h : token.isPlain = true) : Reads token.chars token.pieces := by
  cases token with
  | word w => exact reads_word h
  | name n =>
    refine Reads.single rfl ?_
    intro rest hrest
    exact pieces_name n (hrest.head?_ne (by decide))
  | text value =>
    refine Reads.single rfl ?_
    intro rest hrest
    exact pieces_text value (hrest.head?_ne (by decide))
  | number n => exact reads_number n
  | symbol mark =>
    refine Reads.single rfl ?_
    intro rest hrest
    exact pieces_mark (of_decide_eq_true h) hrest

theorem semicolon_not_mem_pieces {token : Token} (h : token.isPlain = true) :
    Piece.symbol ";" ∉ token.pieces := by
  cases token with
  | symbol mark =>
    intro hmem
    simp only [pieces, List.mem_singleton, Piece.symbol.injEq] at hmem
    subst hmem
    revert h
    decide
  | number n =>
    simp only [pieces]
    split <;> simp
  | _ => simp [pieces]

end Token

/-- Where no blank stands between two tokens, the first is an opening bracket, or the second begins
    with a mark that ends any token. -/
theorem blankBetween_eq_false {left right : Token} (h : left.blankBetween right = false) :
    left = .symbol "(" ∨ ∃ mark ∈ ["(", ")", ","], right = .symbol mark := by
  simp only [Token.blankBetween, Bool.and_eq_false_iff, bne_eq_false_iff_eq] at h
  rcases h with ((h | h) | h) | h
  · exact .inl h
  · exact .inr ⟨"(", by simp, h⟩
  · exact .inr ⟨")", by simp, h⟩
  · exact .inr ⟨",", by simp, h⟩

theorem reads_clause (clause : Clause) (h : ∀ token ∈ clause, token.isPlain = true) :
    Reads (Clause.chars clause) (clause.flatMap Token.pieces) := by
  induction clause with
  | nil => exact Reads.nil
  | cons left clause ih =>
    have hleft := Token.reads (h left List.mem_cons_self)
    have hrest := ih fun token htoken => h token (List.mem_cons_of_mem _ htoken)
    rw [List.flatMap_cons]
    cases clause with
    | nil => simpa [Clause.chars] using hleft
    | cons right clause =>
      rw [Clause.chars, List.append_assoc]
      cases hblank : left.blankBetween right with
      | true => exact hleft.append hrest.blank (apart_cons (by decide) _)
      | false =>
        rcases blankBetween_eq_false hblank with rfl | ⟨mark, hmark, rfl⟩
        · exact hrest.opening
        · refine hleft.append hrest ?_
          obtain ⟨after, hafter⟩ := clause_chars_cons (.symbol mark) clause
          simp only [List.mem_cons, List.not_mem_nil, or_false] at hmark
          rw [hafter]
          rcases hmark with rfl | rfl | rfl
          all_goals exact apart_cons (by decide) after

/-- A statement of plain tokens is read as its tokens. -/
theorem reads_statement (statement : Statement) (h : ∀ token ∈ statement.tokens, token.isPlain = true) :
    Reads statement.chars (statement.tokens.flatMap Token.pieces) := by
  induction statement with
  | nil => exact Reads.nil
  | cons clause statement ih =>
    have hclause := reads_clause clause fun token htoken =>
      h token (List.mem_append_left _ htoken)
    have hrest := ih fun token htoken => h token (List.mem_append_right _ htoken)
    rw [Statement.tokens, List.flatten_cons, List.flatMap_append]
    cases statement with
    | nil => simpa [Statement.chars, Statement.tokens] using hclause
    | cons next statement =>
      rw [Statement.chars]
      · exact hclause.append hrest.blank (apart_cons (by decide) _)
      · simp

/-! ## Statements of a script -/

/-- Only white space begins a text that is read as a blank. -/
theorem isToken_next {c : Char} {rest : List Char} (hc : c.isWhitespace = false)
    (h : (next c rest).1.isComment = false) : (next c rest).1.isToken = true := by
  unfold next at h ⊢
  rw [if_neg (by simp [hc])] at h ⊢
  split at h
  · cases h
  · next hdash =>
      rw [if_neg hdash]
      repeat' split
      all_goals rfl

theorem statementsFrom_of_isToken {piece : Piece} (htoken : piece.isToken = true)
    (hsemicolon : piece ≠ .symbol ";") (current : List Char) (rest : List Piece) :
    statementsFrom current (piece :: rest) = statementsFrom (current ++ piece.source) rest := by
  cases piece with
  | blank c => cases htoken
  | comment text => cases htoken
  | _ => rw [statementsFrom, if_neg hsemicolon] <;> simp

/-- What is read without a comment and without a semicolon all belongs to one statement. -/
theorem statementsFrom_append {current : List Char} (hcurrent : current ≠ []) (ps rest : List Piece)
    (huncommented : ∀ piece ∈ ps, piece.isComment = false) (hsemicolon : Piece.symbol ";" ∉ ps) :
    statementsFrom current (ps ++ rest) =
      statementsFrom (current ++ ps.flatMap Piece.source) rest := by
  induction ps generalizing current with
  | nil => simp
  | cons piece ps ih =>
    have hpiece := huncommented piece List.mem_cons_self
    have hne : piece ≠ .symbol ";" := fun heq => hsemicolon (heq ▸ List.mem_cons_self)
    have hstep : statementsFrom current (piece :: (ps ++ rest)) =
        statementsFrom (current ++ piece.source) (ps ++ rest) := by
      cases piece with
      | comment text => cases hpiece
      | blank c => rw [statementsFrom, if_neg hcurrent]; rfl
      | _ => exact statementsFrom_of_isToken rfl hne _ _
    rw [List.cons_append, hstep, ih (by simp [hcurrent])
      (fun p hp => huncommented p (List.mem_cons_of_mem _ hp))
      (fun hmem => hsemicolon (List.mem_cons_of_mem _ hmem)), List.flatMap_cons, List.append_assoc]

/-- A statement that begins with no blank and holds no semicolon is read whole. -/
theorem Reads.statementsFrom {c : Char} {text : List Char} {ts : List Piece}
    (h : Reads (c :: text) ts) (hc : c.isWhitespace = false) (hsemicolon : Piece.symbol ";" ∉ ts)
    (rest : List Piece) :
    statementsFrom [] (pieces (c :: text) ++ rest) = statementsFrom (c :: text) rest := by
  have hsource := source_pieces (c :: text)
  have huncommented := h.uncommented
  have hnone : Piece.symbol ";" ∉ pieces (c :: text) := by
    intro hmem
    rw [← h.tokens] at hsemicolon
    exact hsemicolon (List.mem_filter.2 ⟨hmem, rfl⟩)
  rw [pieces] at huncommented hnone hsource ⊢
  rw [List.mem_cons, not_or] at hnone
  have hfirst := isToken_next hc (huncommented _ List.mem_cons_self)
  rw [List.cons_append, statementsFrom_of_isToken hfirst (Ne.symm hnone.1), List.nil_append,
    statementsFrom_append (source_next_ne_nil c text) _ _
      (fun p hp => huncommented p (List.mem_cons_of_mem _ hp)) hnone.2,
    ← List.flatMap_cons, hsource]

/-- Before a text that is apart from it, a statement of plain tokens is read whole. -/
theorem statementsFrom_statement {statement : Statement} {c : Char} {cs rest : List Char}
    (hplain : ∀ token ∈ statement.tokens, token.isPlain = true) (hchars : statement.chars = c :: cs)
    (hc : c.isWhitespace = false) (hrest : Apart rest) :
    statementsFrom [] (pieces (statement.chars ++ rest)) =
      statementsFrom statement.chars (pieces rest) := by
  have hreads := reads_statement statement hplain
  have hsemicolon : Piece.symbol ";" ∉ statement.tokens.flatMap Token.pieces := by
    intro hmem
    obtain ⟨token, htoken, hpiece⟩ := List.mem_flatMap.1 hmem
    exact Token.semicolon_not_mem_pieces (hplain token htoken) hpiece
  rw [hreads.closed rest hrest]
  rw [hchars] at hreads ⊢
  exact hreads.statementsFrom hc hsemicolon (pieces rest)

theorem tokens_text {statement : Statement}
    (hplain : ∀ token ∈ statement.tokens, token.isPlain = true) :
    tokens statement.text = statement.tokens.flatMap Token.pieces := by
  rw [tokens, Statement.text, String.toList_ofList, (reads_statement statement hplain).tokens]

end BlockPipeline.Sql
