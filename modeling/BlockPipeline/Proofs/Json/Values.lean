import BlockPipeline.Proofs.Json.Scalars

set_option autoImplicit false

/-! # Values are read back

A value is read back from either form of its text, as part of another value or alone, if its numbers
are integers of 64 bits and it is not nested too deep (`ofText_chars`). Each value stops where it
should because what follows it, a comma, a bracket or a line break, cannot be a part of it. -/

namespace BlockPipeline.Json

open Reader

variable {style : Style} {level depth fuel room : Nat} {text rest : List Char}

/-! ## Blanks -/

/-- The text begins with neither a blank nor a closing bracket. -/
def Opens (text : List Char) : Prop :=
  ∃ c rest, text = c :: rest ∧ c ∉ [' ', '\n', '\t', '\r', ']', '\x7d']

theorem opens_cons {c : Char} (hc : c ∉ [' ', '\n', '\t', '\r', ']', '\x7d']) (rest : List Char) :
    Opens (c :: rest) := ⟨c, rest, rfl, hc⟩

theorem Opens.append (h : Opens text) (rest : List Char) : Opens (text ++ rest) := by
  obtain ⟨c, behind, rfl, hc⟩ := h
  exact opens_cons hc (behind ++ rest)

theorem skipBlanks_cons {c : Char} (hc : c ∉ [' ', '\n', '\t', '\r']) (rest : List Char) :
    skipBlanks (c :: rest) = c :: rest := by
  simp only [List.mem_cons, List.not_mem_nil, or_false, not_or] at hc
  simp [skipBlanks, hc]

theorem skipBlanks_lineBreak (style : Style) (level : Nat) (text : List Char) :
    skipBlanks (style.lineBreak level ++ text) = skipBlanks text := by
  cases style with
  | compact => rfl
  | pretty =>
    have hblank : ∀ c ∈ List.replicate (2 * level) ' ',
        (c == ' ' || c == '\n' || c == '\t' || c == '\r') = true := by
      intro c hc
      rw [List.eq_of_mem_replicate hc]
      rfl
    simp only [Style.lineBreak, List.cons_append, skipBlanks]
    rw [List.dropWhile_cons_of_pos (by rfl), List.dropWhile_append_of_pos hblank]

/-- Only the line break is skipped, and no closing bracket follows it. -/
theorem Opens.skipped (h : Opens text) (style : Style) (level : Nat) : ∃ c rest, text = c :: rest ∧
    skipBlanks (style.lineBreak level ++ c :: rest) = c :: rest ∧ c ≠ ']' ∧ c ≠ '\x7d' := by
  obtain ⟨c, rest, rfl, hc⟩ := h
  simp only [List.mem_cons, List.not_mem_nil, or_false, not_or] at hc
  refine ⟨c, rest, rfl, ?_, hc.2.2.2.2.1, hc.2.2.2.2.2⟩
  rw [skipBlanks_lineBreak, skipBlanks_cons (by simp [hc])]

theorem delimits_lineBreak {c : Char} (hc : c ∈ [',', '\n', ']', '\x7d']) (style : Style)
    (level : Nat) (rest : List Char) : Delimits (style.lineBreak level ++ c :: rest) := by
  cases style with
  | compact => exact delimits_cons hc rest
  | pretty => exact delimits_cons (by decide) _

/-! ## Where values begin -/

theorem opens_stringChars (s : String) : Opens (stringChars s) :=
  opens_cons (by decide) (s.toList.flatMap escape ++ ['"'])

theorem opens_number (n : Number) : Opens n.text.toList := by
  rw [n.text_eq_sign]
  split
  · exact opens_cons (by decide) _
  · obtain ⟨whole, fraction, exponent, htext, hne, hwhole, -⟩ := n.numeral_text.parts
    obtain ⟨c, whole, rfl⟩ := List.exists_cons_of_ne_nil hne
    rw [htext, List.nil_append]
    refine opens_cons (fun hc => ?_) _
    have hdigit := hwhole c List.mem_cons_self
    rw [isDigit_of_mem_marks (by decide) hc] at hdigit
    cases hdigit

theorem opens_chars (style : Style) (level : Nat) (value : Json) : Opens (value.chars style level) := by
  cases value with
  | null => exact opens_cons (by decide) _
  | bool b => cases b <;> exact opens_cons (by decide) _
  | number n => exact opens_number n
  | string s => exact opens_stringChars s
  | array items => cases items <;> exact opens_cons (by decide) _
  | object fields => cases fields <;> exact opens_cons (by decide) _

/-! ## The steps of reading -/

theorem readValue_blank (fuel depth : Nat) (text : List Char) :
    readValue fuel depth (' ' :: text) = readValue fuel depth text := by
  cases fuel with
  | zero => simp [readValue]
  | succ fuel => simp [readValue, skipBlanks]

theorem readValue_colon (style : Style) (fuel depth : Nat) (text : List Char) :
    ∃ behind, style.colon ++ text = ':' :: behind ∧
      readValue fuel depth behind = readValue fuel depth text := by
  cases style with
  | compact => exact ⟨text, rfl, rfl⟩
  | pretty => exact ⟨' ' :: text, rfl, readValue_blank fuel depth text⟩

theorem readValue_string (s : String) (fuel depth : Nat) (rest : List Char) :
    readValue (fuel + 1) depth (stringChars s ++ rest) = (.string s, some rest) := by
  simp only [stringChars, List.cons_append, List.append_assoc, List.nil_append]
  rw [readValue, skipBlanks_cons (by decide)]
  exact readStringNode_inside s rest

/-- No other value begins with a digit. -/
theorem readValue_digits {digits : List Char} (hne : digits ≠ [])
    (hdigits : BlockPipeline.Number.AllDigits digits) (fuel depth : Nat) (rest : List Char) :
    readValue (fuel + 1) depth (digits ++ rest) = readUnsigned false (digits ++ rest) := by
  obtain ⟨c, digits, rfl⟩ := List.exists_cons_of_ne_nil hne
  have hc := hdigits c List.mem_cons_self
  have hother : c ∉ [' ', '\n', '\t', '\r', 'n', 't', 'f', '"', '-', '[', '\x7b'] := by
    intro hmem
    rw [isDigit_of_mem_marks (by decide) hmem] at hc
    cases hc
  simp only [List.mem_cons, List.not_mem_nil, or_false, not_or] at hother
  rw [List.cons_append, readValue, skipBlanks_cons (by simp [hother])]
  split <;> simp_all

theorem Opens.readValue_array (h : Opens text) (style : Style) (fuel depth level : Nat) :
    readValue (fuel + 1) depth ('[' :: (style.lineBreak level ++ text))
      = (atDepth depth (.array (readItems fuel (depth + 1) text).1
          (readItems fuel (depth + 1) text).2.1), (readItems fuel (depth + 1) text).2.2) := by
  obtain ⟨c, rest, rfl, hskip, hc, -⟩ := h.skipped style level
  rw [readValue, skipBlanks_cons (by decide)]
  simp only [hskip]
  split
  · next heq => cases heq
  · next heq => exact absurd (List.cons.inj heq).1 hc
  · rfl

theorem Opens.readValue_object (h : Opens text) (style : Style) (fuel depth level : Nat) :
    readValue (fuel + 1) depth ('\x7b' :: (style.lineBreak level ++ text))
      = (atDepth depth (.object (readFields fuel (depth + 1) text).1
          (readFields fuel (depth + 1) text).2.1), (readFields fuel (depth + 1) text).2.2) := by
  obtain ⟨c, rest, rfl, hskip, -, hc⟩ := h.skipped style level
  rw [readValue, skipBlanks_cons (by decide)]
  simp only [hskip]
  split
  · next heq => cases heq
  · next heq => exact absurd (List.cons.inj heq).1 hc
  · rfl

/-- The last item of an array. -/
theorem readItems_last {item : Node}
    (h : readValue fuel depth text = (item, some (style.lineBreak level ++ ']' :: rest))) :
    readItems (fuel + 1) depth text = ([item], .closed, some rest) := by
  have hclose : skipBlanks (']' :: rest) = ']' :: rest := skipBlanks_cons (by decide) rest
  simp only [readItems, h, skipBlanks_lineBreak, hclose]

/-- An item before another one. -/
theorem Opens.readItems_cons {behind : List Char} {item : Node} (hopens : Opens behind)
    (h : readValue fuel depth text = (item, some (',' :: (style.lineBreak level ++ behind)))) :
    readItems (fuel + 1) depth text = (item :: (readItems fuel depth behind).1,
      (readItems fuel depth behind).2) := by
  obtain ⟨c, rest, rfl, hskip, hc, -⟩ := hopens.skipped style level
  simp only [readItems, h]
  rw [skipBlanks_cons (by decide)]
  simp only [hskip]
  split
  · next heq => cases heq
  · next heq => exact absurd (List.cons.inj heq).1 hc
  · rfl

/-- The last field of an object. -/
theorem readFields_last {name : String} {value : Node}
    (h : readValue fuel depth text = (value, some (style.lineBreak level ++ '\x7d' :: rest))) :
    readFields (fuel + 1) depth (stringChars name ++ (style.colon ++ text))
      = ([(some name, value)], .closed, some rest) := by
  have hclose : skipBlanks ('\x7d' :: rest) = '\x7d' :: rest := skipBlanks_cons (by decide) rest
  obtain ⟨behind, hcolon, hbehind⟩ := readValue_colon style fuel depth text
  simp only [stringChars, List.cons_append, List.append_assoc, List.nil_append, readFields]
  rw [hcolon, readString_inside]
  simp only [Option.map_some, String.ofList_toList]
  rw [skipBlanks_cons (by decide)]
  simp only [hbehind, h, skipBlanks_lineBreak, hclose]

/-- A field before another one. -/
theorem Opens.readFields_cons {behind : List Char} {name : String} {value : Node}
    (hopens : Opens behind)
    (h : readValue fuel depth text = (value, some (',' :: (style.lineBreak level ++ behind)))) :
    readFields (fuel + 1) depth (stringChars name ++ (style.colon ++ text))
      = ((some name, value) :: (readFields fuel depth behind).1,
        (readFields fuel depth behind).2) := by
  obtain ⟨c, rest, rfl, hskip, -⟩ := hopens.skipped style level
  obtain ⟨after, hcolon, hafter⟩ := readValue_colon style fuel depth text
  simp only [stringChars, List.cons_append, List.append_assoc, List.nil_append, readFields]
  rw [hcolon, readString_inside]
  simp only [Option.map_some, String.ofList_toList]
  rw [skipBlanks_cons (by decide)]
  simp only [hafter, h]
  rw [skipBlanks_cons (by decide)]
  simp only [hskip]

/-! ## Whole values -/

/-- Values whose numbers are integers of 64 bits and in which no more than so many arrays and objects
    stand around one another. -/
inductive Readable : Nat → Json → Prop
  | null {room : Nat} : Readable room .null
  | bool {room : Nat} (b : Bool) : Readable room (.bool b)
  | number {room : Nat} {n : Number} (h : n.isIntegral = true) : Readable room (.number n)
  | string {room : Nat} (s : String) : Readable room (.string s)
  | array {room : Nat} {items : List Json} (h : ∀ item ∈ items, Readable room item) :
    Readable (room + 1) (.array items)
  | object {room : Nat} {fields : List (String × Json)}
    (h : ∀ field ∈ fields, Readable room field.2) : Readable (room + 1) (.object fields)

/-- An unsigned integer of 64 bits can be read. -/
theorem Readable.ofNat {n : Nat} (h : n < 2 ^ 64) : Readable room (.ofNat n) :=
  .number (Number.isIntegral_iff.2 (by omega))

theorem Readable.mono {value : Json} {more : Nat} (h : Readable room value) (hle : room ≤ more) :
    Readable more value := by
  induction h generalizing more with
  | null => exact .null
  | bool b => exact .bool b
  | number h => exact .number h
  | string s => exact .string s
  | array _ ih =>
    obtain ⟨more, rfl⟩ := Nat.exists_eq_add_one_of_ne_zero (by omega : more ≠ 0)
    exact .array fun item hmem => ih item hmem (by omega)
  | object _ ih =>
    obtain ⟨more, rfl⟩ := Nat.exists_eq_add_one_of_ne_zero (by omega : more ≠ 0)
    exact .object fun field hmem => ih field hmem (by omega)

/-- The value is found wherever it is written and there is room for it. -/
def Found (style : Style) (room : Nat) (value : Json) : Prop :=
  ∀ ⦃level depth fuel : Nat⦄ ⦃rest : List Char⦄, depth + room ≤ depthLimit → Delimits rest →
    2 * (value.chars style level).length ≤ fuel →
    readValue fuel depth (value.chars style level ++ rest) = (Node.ofJson value, some rest)

/-- No text is empty, so there is fuel for the first step. -/
theorem Found.of_succ {value : Json} (h : ∀ ⦃level depth fuel : Nat⦄ ⦃rest : List Char⦄,
    depth + room ≤ depthLimit → Delimits rest → 2 * (value.chars style level).length ≤ fuel + 1 →
    readValue (fuel + 1) depth (value.chars style level ++ rest) = (Node.ofJson value, some rest)) :
    Found style room value := by
  intro level depth fuel rest hdepth hrest hfuel
  cases fuel with
  | zero =>
    obtain ⟨c, behind, hchars, -⟩ := opens_chars style level value
    rw [hchars, List.length_cons] at hfuel
    omega
  | succ fuel => exact h hdepth hrest hfuel

theorem found_number {n : Number} (h : n.isIntegral = true) : Found style room (.number n) := by
  obtain ⟨n, rfl, hamount, hroom⟩ := n.integer_of_isIntegral h
  refine .of_succ fun level depth fuel rest _ hrest _ => ?_
  simp only [chars, Number.text, Text.integerText, Text.naturalText]
  split
  · next hn =>
    rw [String.toList_ofList, List.cons_append, readValue, skipBlanks_cons (by decide)]
    exact (readUnsigned_toDigits true hamount hrest.stops).trans
      (hrest.readAfterWhole (integerOf?_natAbs_of_neg hn (hroom hn)))
  · next hn =>
    rw [String.toList_ofList, readValue_digits Nat.toDigits_ne_nil (Number.allDigits_toDigits _)]
    exact (readUnsigned_toDigits false hamount hrest.stops).trans
      (hrest.readAfterWhole (integerOf?_natAbs (by omega)))

/-- The items of an array are found one after the other. There is a unit of fuel for each of them, as
    its text is not empty. -/
theorem readItems_chars {item : Json} {items : List Json} {outer : Nat}
    (hitem : Found style room item) (hitems : ∀ other ∈ items, Found style room other)
    (hdepth : depth + room ≤ depthLimit)
    (hfuel : 2 * ((item.chars style level).length + (itemChars style level items).length) < fuel) :
    readItems fuel depth (item.chars style level ++ (itemChars style level items
        ++ (style.lineBreak outer ++ ']' :: rest)))
      = (Node.ofItems (item :: items), .closed, some rest) := by
  induction items generalizing item fuel with
  | nil =>
    obtain ⟨fuel, rfl⟩ := Nat.exists_eq_add_one_of_ne_zero (by omega : fuel ≠ 0)
    simp only [itemChars, List.nil_append, List.length_nil, Nat.add_zero] at hfuel ⊢
    have hbehind : Delimits (style.lineBreak outer ++ ']' :: rest) :=
      delimits_lineBreak (by decide) style outer rest
    exact readItems_last (hitem hdepth hbehind (by omega))
  | cons next items ih =>
    obtain ⟨fuel, rfl⟩ := Nat.exists_eq_add_one_of_ne_zero (by omega : fuel ≠ 0)
    have hnext := hitems next List.mem_cons_self
    have hmore : ∀ other ∈ items, Found style room other := fun other hmem =>
      hitems other (List.mem_cons_of_mem _ hmem)
    simp only [itemChars, List.cons_append, List.append_assoc, List.length_cons,
      List.length_append] at hfuel ⊢
    have hopens := (opens_chars style level next).append
      (itemChars style level items ++ (style.lineBreak outer ++ ']' :: rest))
    rw [hopens.readItems_cons (hitem hdepth (delimits_cons (by decide) _) (by omega)),
      ih hnext hmore (by omega)]
    rfl

/-- The fields of an object are found one after the other. -/
theorem readFields_chars {name : String} {value : Json} {fields : List (String × Json)} {outer : Nat}
    (hvalue : Found style room value) (hfields : ∀ field ∈ fields, Found style room field.2)
    (hdepth : depth + room ≤ depthLimit)
    (hfuel : 2 * ((value.chars style level).length + (fieldChars style level fields).length) < fuel) :
    readFields fuel depth (stringChars name ++ (style.colon ++ (value.chars style level
        ++ (fieldChars style level fields ++ (style.lineBreak outer ++ '\x7d' :: rest)))))
      = (Node.ofFields ((name, value) :: fields), .closed, some rest) := by
  induction fields generalizing name value fuel with
  | nil =>
    obtain ⟨fuel, rfl⟩ := Nat.exists_eq_add_one_of_ne_zero (by omega : fuel ≠ 0)
    simp only [fieldChars, List.nil_append, List.length_nil, Nat.add_zero] at hfuel ⊢
    have hbehind : Delimits (style.lineBreak outer ++ '\x7d' :: rest) :=
      delimits_lineBreak (by decide) style outer rest
    exact readFields_last (hvalue hdepth hbehind (by omega))
  | cons field fields ih =>
    obtain ⟨next, nextValue⟩ := field
    obtain ⟨fuel, rfl⟩ := Nat.exists_eq_add_one_of_ne_zero (by omega : fuel ≠ 0)
    have hnext : Found style room nextValue := hfields (next, nextValue) List.mem_cons_self
    have hmore : ∀ other ∈ fields, Found style room other.2 := fun other hmem =>
      hfields other (List.mem_cons_of_mem _ hmem)
    simp only [fieldChars, List.cons_append, List.append_assoc, List.length_cons,
      List.length_append] at hfuel ⊢
    have hopens := (opens_stringChars next).append (style.colon ++ (nextValue.chars style level
      ++ (fieldChars style level fields ++ (style.lineBreak outer ++ '\x7d' :: rest))))
    rw [hopens.readFields_cons (hvalue hdepth (delimits_cons (by decide) _) (by omega)),
      ih hnext hmore (by omega)]
    rfl

theorem atDepth_of_room (h : depth + (room + 1) ≤ depthLimit) (node : Node) :
    atDepth depth node = node := by
  rw [atDepth, if_pos (by omega)]

theorem found_array {items : List Json} (h : ∀ item ∈ items, Found style room item) :
    Found style (room + 1) (.array items) := by
  refine .of_succ fun level depth fuel rest hdepth _ hfuel => ?_
  cases items with
  | nil =>
    rw [← atDepth_of_room hdepth (Node.ofJson _)]
    rfl
  | cons item items =>
    have hmore : ∀ other ∈ items, Found style room other := fun other hmem =>
      h other (List.mem_cons_of_mem _ hmem)
    simp only [chars, List.cons_append, List.append_assoc, List.nil_append, List.length_cons,
      List.length_append, List.length_nil] at hfuel ⊢
    have hopens := (opens_chars style (level + 1) item).append
      (itemChars style (level + 1) items ++ (style.lineBreak level ++ ']' :: rest))
    rw [hopens.readValue_array, readItems_chars (h item List.mem_cons_self) hmore (by omega) (by omega),
      atDepth_of_room hdepth]
    rfl

theorem found_object {fields : List (String × Json)} (h : ∀ field ∈ fields, Found style room field.2) :
    Found style (room + 1) (.object fields) := by
  refine .of_succ fun level depth fuel rest hdepth _ hfuel => ?_
  cases fields with
  | nil =>
    rw [← atDepth_of_room hdepth (Node.ofJson _)]
    rfl
  | cons field fields =>
    obtain ⟨name, value⟩ := field
    have hvalue : Found style room value := h (name, value) List.mem_cons_self
    have hmore : ∀ other ∈ fields, Found style room other.2 := fun other hmem =>
      h other (List.mem_cons_of_mem _ hmem)
    simp only [chars, List.cons_append, List.append_assoc, List.nil_append, List.length_cons,
      List.length_append, List.length_nil] at hfuel ⊢
    have hopens := (opens_stringChars name).append (style.colon ++ (value.chars style (level + 1)
      ++ (fieldChars style (level + 1) fields ++ (style.lineBreak level ++ '\x7d' :: rest))))
    rw [hopens.readValue_object,
      readFields_chars hvalue hmore (by omega) (by omega),
      atDepth_of_room hdepth]
    rfl

theorem Readable.found {value : Json} (h : Readable room value) (style : Style) :
    Found style room value := by
  induction h with
  | null => exact .of_succ fun _ _ _ _ _ _ _ => rfl
  | bool b =>
    refine .of_succ fun _ _ _ _ _ _ _ => ?_
    cases b <;> rfl
  | number h => exact found_number h
  | string s => exact .of_succ fun _ _ _ rest _ _ _ => readValue_string s _ _ rest
  | array _ ih => exact found_array ih
  | object _ ih => exact found_object ih

/-- The text of a value is laid out as the value, and nothing follows it. -/
theorem Readable.ofText_chars {value : Json} (h : Readable room value) (hroom : room ≤ depthLimit)
    (style : Style) :
    Document.ofText (String.ofList (value.chars style 0)) = ⟨.ofJson value, false⟩ := by
  have hread : readValue (2 * (value.chars style 0).length + 2) 0 (value.chars style 0 ++ [])
      = (.ofJson value, some []) := h.found style (by omega) delimits_nil (by omega)
  rw [List.append_nil] at hread
  simp only [Document.ofText, String.toList_ofList, hread]
  rfl

end BlockPipeline.Json
