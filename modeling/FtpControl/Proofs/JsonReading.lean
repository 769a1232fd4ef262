import FtpControl.Proofs.JsonGrammar

namespace FtpControl.Json

theorem skipSpaces_append {space : List Char} (h : Spaces space) (cs : List Char) :
    skipSpaces (space ++ cs) = skipSpaces cs :=
  List.dropWhile_append_of_pos h

theorem skipSpaces_cons {c : Char} (h : isSpace c = false) (cs : List Char) :
    skipSpaces (c :: cs) = c :: cs := by
  simp [skipSpaces, h]

theorem skipSpaces_skipSpaces (cs : List Char) : skipSpaces (skipSpaces cs) = skipSpaces cs :=
  List.dropWhile_idempotent _ _

theorem readValue_skipSpaces (fuel : Nat) (cs : List Char) :
    readValue fuel (skipSpaces cs) = readValue fuel cs := by
  cases fuel with
  | zero => simp [readValue]
  | succ fuel => simp only [readValue, skipSpaces_skipSpaces]

theorem readItems_skipSpaces (fuel : Nat) (cs : List Char) :
    readItems fuel (skipSpaces cs) = readItems fuel cs := by
  cases fuel with
  | zero => simp [readItems]
  | succ fuel => simp only [readItems, readValue_skipSpaces]

theorem closed_append {space rest : List Char} (h : Spaces space) (closed : Closed rest) :
    Closed (space ++ rest) := by
  cases space with
  | nil => exact closed
  | cons c space =>
    intro d hd
    obtain rfl := Option.some.inj hd
    have hc := h c List.mem_cons_self
    simp only [isSpace, Bool.or_eq_true, beq_iff_eq] at hc
    rcases hc with ((rfl | rfl) | rfl) | rfl <;> decide

theorem closed_cons {c : Char} (h : c = ',' ∨ c = ']' ∨ c = '\x7d') (rest : List Char) :
    Closed (c :: rest) := by
  intro d hd
  obtain rfl := Option.some.inj hd
  rcases h with rfl | rfl | rfl <;> decide

/-- The text is read as the value, and what stands behind it is left. -/
def Reads (value : Json) (text : List Char) : Prop :=
  ∀ fuel rest, text.length < fuel → Closed rest → readValue fuel (text ++ rest) = (value, .ok rest)

/-- A number begins with its sign or with a digit. -/
theorem Numeral.Sound.stem_cons {n : Numeral} (sound : n.Sound) :
    ∃ c cs, n.stem = c :: cs ∧ (c = '-' ∨ isDigit c = true) := by
  obtain ⟨d, ds, hds, hd, _⟩ := digits_cons sound.whole
  cases hn : n.negative with
  | true => exact ⟨'-', _, by simp only [stem, hn, ↓reduceIte]; rfl, Or.inl rfl⟩
  | false => exact ⟨d, _, by simp only [stem, hn, hds]; rfl, Or.inr hd⟩

/-- A value neither begins with space nor with the end of an array. -/
theorem Written.head {value : Json} {text : List Char} (h : Written value text) :
    ∃ c cs, text = c :: cs ∧ isSpace c = false ∧ c ≠ ']' := by
  cases h with
  | @number n exponent sound _ =>
    obtain ⟨c, cs, hstem, hc⟩ := sound.stem_cons
    refine ⟨c, cs ++ exponent, by rw [hstem]; rfl, ?_⟩
    rcases hc with rfl | hc
    · exact ⟨rfl, by decide⟩
    · have hne := fun d => @ne_of_isDigit c d hc
      refine ⟨?_, hne _ rfl⟩
      simp [isSpace, hne ' ' rfl, hne '\t' rfl, hne '\n' rfl, hne '\r' rfl]
  | _ => exact ⟨_, _, rfl, rfl, by decide⟩

theorem reads_number {n : Numeral} {exponent : List Char} (sound : n.Sound)
    (written : Exponent n.exponent exponent) : Reads (.number n) (n.stem ++ exponent) := by
  intro fuel rest hfuel closed
  cases fuel with
  | zero => omega
  | succ fuel =>
    have hread := readNumber_append sound written closed
    obtain ⟨c, cs, hstem, hc⟩ := sound.stem_cons
    have hspace : isSpace c = false := by
      obtain ⟨c', cs', hcons, hspace, _⟩ := (Written.number sound written).head
      rw [hstem] at hcons
      rwa [← (List.cons.inj hcons).1] at hspace
    have hword : ∀ d ∈ ['n', 't', 'f', '"', '[', '\x7b'], c ≠ d := by
      rintro d hd rfl
      rcases hc with rfl | hc
      · simp at hd
      · simp only [List.mem_cons, List.not_mem_nil, or_false] at hd
        rcases hd with rfl | rfl | rfl | rfl | rfl | rfl <;> exact ne_of_isDigit hc rfl rfl
    rw [hstem, List.cons_append, List.cons_append] at hread ⊢
    rw [readValue, skipSpaces_cons hspace]
    split
    case h_8 d ds _ _ _ _ _ _ heq =>
      obtain ⟨rfl, rfl⟩ := List.cons.inj heq
      rw [if_pos hc, hread]
      rfl
    case h_1 heq => cases heq
    all_goals
      next heq => exact absurd (List.cons.inj heq).1 (hword _ (by simp))

theorem reads_null : Reads .null "null".toList := by
  rintro (_ | fuel) rest hfuel _
  · simp at hfuel
  · simp [readValue, skipSpaces, isSpace, readIdent, settle, Except.map]

theorem reads_true : Reads (.bool true) "true".toList := by
  rintro (_ | fuel) rest hfuel _
  · simp at hfuel
  · simp [readValue, skipSpaces, isSpace, readIdent, settle, Except.map]

theorem reads_false : Reads (.bool false) "false".toList := by
  rintro (_ | fuel) rest hfuel _
  · simp at hfuel
  · simp [readValue, skipSpaces, isSpace, readIdent, settle, Except.map]

theorem reads_string (pieces : List Piece) : Reads (ofString (unescape pieces)) (inQuotes pieces) := by
  intro fuel rest hfuel _
  cases fuel with
  | zero => omega
  | succ fuel =>
    have hread := readString_pieces pieces {} rest
    rw [inQuotes, List.cons_append, readValue, skipSpaces_cons rfl]
    simp [hread, settle, unescape]

theorem Item.reads {item : Item} (h : Reads item.value item.text) {fuel : Nat}
    (hfuel : item.whole.length < fuel) {rest : List Char} (closed : Closed rest) :
    readValue fuel (item.whole ++ rest) = (item.value, .ok (item.after ++ rest)) := by
  have htext : item.text.length < fuel := by
    simp only [whole, List.length_append] at hfuel
    omega
  have hwhole : skipSpaces (item.whole ++ rest) = skipSpaces (item.text ++ (item.after ++ rest)) := by
    simp only [whole, List.append_assoc, skipSpaces_append item.spaced.1]
  rw [← readValue_skipSpaces, hwhole, readValue_skipSpaces]
  exact h fuel _ htext (closed_append item.spaced.2 closed)

theorem Item.skipSpaces_whole {item : Item} (h : Written item.value item.text) (rest : List Char) :
    ∃ c cs, skipSpaces (item.whole ++ rest) = c :: cs ∧ c ≠ ']' := by
  obtain ⟨c, cs, htext, hspace, hc⟩ := h.head
  refine ⟨c, cs ++ (item.after ++ rest), ?_, hc⟩
  rw [whole, List.append_assoc, List.append_assoc, skipSpaces_append item.spaced.1, htext,
    List.cons_append, skipSpaces_cons hspace]

theorem closed_furtherItems (more : List Item) (rest : List Char) :
    Closed (furtherItems more ++ rest) := by
  cases more with
  | nil => exact closed_cons (Or.inr (Or.inl rfl)) _
  | cons item more => exact closed_cons (Or.inl rfl) _

theorem readItems_append {first : Item} {more : List Item}
    (written : ∀ item ∈ first :: more, Written item.value item.text)
    (reads : ∀ item ∈ first :: more, Reads item.value item.text) (rest : List Char) {fuel : Nat}
    (hfuel : (first.whole ++ furtherItems more).length < fuel) :
    readItems fuel (first.whole ++ (furtherItems more ++ rest)) =
      ((first :: more).map Item.value, .ok rest) := by
  induction more generalizing first fuel with
  | nil =>
    cases fuel with
    | zero => omega
    | succ fuel =>
      have hlength : first.whole.length < fuel := by
        simp only [furtherItems, List.length_append, List.length_cons] at hfuel
        omega
      rw [readItems, Item.reads (reads first List.mem_cons_self) hlength (closed_furtherItems [] rest)]
      simp only [skipSpaces_append first.spaced.2, furtherItems, List.flatMap_nil, List.nil_append,
        List.singleton_append, skipSpaces_cons (c := ']') rfl, List.map_cons, List.map_nil]
  | cons second more ih =>
    cases fuel with
    | zero => omega
    | succ fuel =>
      have hlength : first.whole.length < fuel ∧
          (second.whole ++ furtherItems more).length < fuel := by
        simp only [furtherItems, List.flatMap_cons, List.length_append, List.length_cons] at hfuel ⊢
        omega
      have hsecond := ih (fun item hitem => written item (List.mem_cons_of_mem _ hitem))
        (fun item hitem => reads item (List.mem_cons_of_mem _ hitem)) hlength.2
      have hfurther : furtherItems (second :: more) ++ rest =
          ',' :: (second.whole ++ (furtherItems more ++ rest)) := by
        simp [furtherItems]
      obtain ⟨c, cs, hskip, hc⟩ := Item.skipSpaces_whole
        (written second (List.mem_cons_of_mem _ List.mem_cons_self)) (furtherItems more ++ rest)
      rw [readItems, Item.reads (reads first List.mem_cons_self) hlength.1
        (closed_furtherItems (second :: more) rest), hfurther]
      -- The reader goes on from the first character of the second item.
      rw [← readItems_skipSpaces, hskip] at hsecond
      simp only [skipSpaces_append first.spaced.2, skipSpaces_cons (c := ',') rfl, hskip]
      split
      next heq => exact absurd (List.cons.inj heq).1 hc
      next heq => cases heq
      next => simp only [hsecond, List.map_cons]

def Member.behind (m : Member) : List Char :=
  m.key.flatMap Piece.text ++ '"' :: (m.after ++ ':' :: m.item.whole)

theorem Member.whole_eq (m : Member) : m.whole = m.before ++ '"' :: m.behind := by
  simp [whole, behind, inQuotes]

theorem closed_furtherMembers (more : List Member) (rest : List Char) :
    Closed (furtherMembers more ++ rest) := by
  cases more with
  | nil => exact closed_cons (Or.inr (Or.inr rfl)) _
  | cons m more => exact closed_cons (Or.inl rfl) _

theorem readMembers_append {first : Member} {more : List Member}
    (reads : ∀ m ∈ first :: more, Reads m.item.value m.item.text) (rest : List Char) {fuel : Nat}
    (hfuel : (first.behind ++ furtherMembers more).length < fuel) :
    readMembers fuel (first.behind ++ (furtherMembers more ++ rest)) =
      ((first :: more).map Member.value, .ok rest) := by
  induction more generalizing first fuel with
  | nil =>
    cases fuel with
    | zero => omega
    | succ fuel =>
      have hlength : first.item.whole.length < fuel := by
        simp only [furtherMembers, Member.behind, List.length_append, List.length_cons] at hfuel
        omega
      have hitem := Item.reads (reads first List.mem_cons_self) hlength (closed_furtherMembers [] rest)
      rw [Member.behind, List.append_assoc, List.cons_append, List.append_assoc, List.cons_append,
        readMembers, readString_pieces]
      simp only [skipSpaces_append first.spaced.2, skipSpaces_cons (c := ':') rfl, hitem,
        skipSpaces_append first.item.spaced.2]
      simp only [furtherMembers, List.flatMap_nil, List.nil_append, List.singleton_append,
        skipSpaces_cons (c := '\x7d') rfl, List.map_cons, List.map_nil, Member.value, unescape]
  | cons second more ih =>
    cases fuel with
    | zero => omega
    | succ fuel =>
      have hlength : first.item.whole.length < fuel ∧
          (second.behind ++ furtherMembers more).length < fuel := by
        simp only [furtherMembers, List.flatMap_cons, Member.behind, Member.whole_eq,
          List.length_append, List.length_cons] at hfuel ⊢
        omega
      have hitem := Item.reads (reads first List.mem_cons_self) hlength.1
        (closed_furtherMembers (second :: more) rest)
      have hsecond := ih (fun m hm => reads m (List.mem_cons_of_mem _ hm)) hlength.2
      have hfurther : furtherMembers (second :: more) ++ rest =
          ',' :: (second.before ++ '"' :: (second.behind ++ (furtherMembers more ++ rest))) := by
        simp [furtherMembers, Member.whole_eq]
      rw [Member.behind, List.append_assoc, List.cons_append, List.append_assoc, List.cons_append,
        readMembers, readString_pieces]
      simp only [skipSpaces_append first.spaced.2, skipSpaces_cons (c := ':') rfl, hitem,
        skipSpaces_append first.item.spaced.2]
      simp only [hfurther, skipSpaces_cons (c := ',') rfl, skipSpaces_append second.spaced.1,
        skipSpaces_cons (c := '"') rfl, hsecond]
      simp only [List.map_cons, Member.value, unescape]

theorem reads_array {first : Item} {more : List Item}
    (written : ∀ item ∈ first :: more, Written item.value item.text)
    (reads : ∀ item ∈ first :: more, Reads item.value item.text) :
    Reads (.array ((first :: more).map Item.value) none)
      ('[' :: (first.whole ++ furtherItems more)) := by
  intro fuel rest hfuel _
  cases fuel with
  | zero => omega
  | succ fuel =>
    have hitems := readItems_append written reads rest (Nat.lt_of_succ_lt_succ hfuel)
    obtain ⟨c, cs, hskip, hc⟩ := Item.skipSpaces_whole (written first List.mem_cons_self)
      (furtherItems more ++ rest)
    rw [← readItems_skipSpaces, hskip] at hitems
    rw [List.cons_append, List.append_assoc, readValue, skipSpaces_cons rfl]
    simp only [hskip]
    split
    next heq => exact absurd (List.cons.inj heq).1 hc
    next heq => cases heq
    next => simp only [hitems, stopOf]

theorem reads_object {first : Member} {more : List Member}
    (reads : ∀ m ∈ first :: more, Reads m.item.value m.item.text) :
    Reads (.object ((first :: more).map Member.value) none)
      ('\x7b' :: (first.whole ++ furtherMembers more)) := by
  intro fuel rest hfuel _
  cases fuel with
  | zero => omega
  | succ fuel =>
    have hlength : (first.behind ++ furtherMembers more).length < fuel := by
      simp only [Member.whole_eq, List.length_append, List.length_cons] at hfuel ⊢
      omega
    have hmembers := readMembers_append reads rest hlength
    rw [List.cons_append, List.append_assoc, Member.whole_eq, List.append_assoc, List.cons_append,
      readValue, skipSpaces_cons rfl]
    simp only [skipSpaces_append first.spaced.1, skipSpaces_cons (c := '"') rfl, hmembers, stopOf]

theorem reads_emptyArray {space : List Char} (h : Spaces space) :
    Reads (.array [] none) ('[' :: (space ++ [']'])) := by
  rintro (_ | fuel) rest hfuel _
  · omega
  · rw [List.cons_append, List.append_assoc, readValue, skipSpaces_cons rfl]
    simp only [skipSpaces_append h, List.singleton_append, skipSpaces_cons (c := ']') rfl]

theorem reads_emptyObject {space : List Char} (h : Spaces space) :
    Reads (.object [] none) ('\x7b' :: (space ++ ['\x7d'])) := by
  rintro (_ | fuel) rest hfuel _
  · omega
  · rw [List.cons_append, List.append_assoc, readValue, skipSpaces_cons rfl]
    simp only [skipSpaces_append h, List.singleton_append, skipSpaces_cons (c := '\x7d') rfl]

theorem Written.reads {value : Json} {text : List Char} (h : Written value text) :
    Reads value text := by
  induction h with
  | null => exact reads_null
  | yes => exact reads_true
  | no => exact reads_false
  | number sound exponent => exact reads_number sound exponent
  | @string pieces s names =>
    have hread := reads_string pieces
    rwa [names.unescape] at hread
  | @unusable pieces why flawed =>
    have hread := reads_string pieces
    rwa [flawed] at hread
  | emptyArray space => exact reads_emptyArray space
  | array written ih => exact reads_array written ih
  | emptyObject space => exact reads_emptyObject space
  | object _ ih => exact reads_object ih

/-- What a document holds is all that is taken from its text. -/
theorem Document.takeAll {α : Type} {value : Json} {text : List Char} (h : Document value text)
    (take : Json → Except Mismatch α) : takeAll take text = take value := by
  obtain ⟨item, written, rfl, rfl⟩ := h
  have hread : readValue (item.whole.length + 1) item.whole = (item.value, .ok item.after) := by
    have hreads := @Item.reads item written.reads _ (Nat.lt_succ_self item.whole.length) [] nofun
    simpa using hreads
  have hafter : skipSpaces item.after = [] := by
    have := skipSpaces_append item.spaced.2 []
    simpa [skipSpaces] using this
  rw [Json.takeAll, read, hread]
  simp only [hafter, List.isEmpty_nil, ↓reduceIte]
  cases take item.value <;> rfl

end FtpControl.Json
