import FtpControl.Json.Printer
import FtpControl.Proofs.JsonDecoding

namespace FtpControl.Json

/-- The value is printed as it can be read again, on one line. -/
structure Printed (value : Json) : Prop where
  written : Written value value.text
  one_line : '\n' ∉ value.text

theorem Printed.document {value : Json} (h : Printed value) : Document value value.text :=
  ⟨⟨[], value, value.text, [], nofun, nofun⟩, h.written, rfl, by simp [Item.whole]⟩

theorem unit?_control {n : Nat} (h : n < 0x20) :
    unit? '0' '0' (Nat.digitChar (n / 16)) (Nat.digitChar (n % 16)) = some n ∧
      Nat.digitChar (n / 16) ≠ '\n' ∧ Nat.digitChar (n % 16) ≠ '\n' := by
  revert n
  decide

/-- A character is printed as a piece that names it and breaks no line. -/
theorem exists_piece (c : Char) : ∃ piece : Piece, piece.text = escaped c ∧ '\n' ∉ piece.text ∧
    ∀ {pieces cs}, Names pieces cs → Names (piece :: pieces) (c :: cs) := by
  have short : ∀ letter, shortEscape? letter = some c → letter ≠ '\n' →
      escaped c = ['\\', letter] → ∃ piece : Piece, piece.text = escaped c ∧ '\n' ∉ piece.text ∧
        ∀ {pieces cs}, Names pieces cs → Names (piece :: pieces) (c :: cs) := by
    intro letter escape hletter htext
    exact ⟨.short letter c escape, htext.symm, by simp [Piece.text, hletter.symm], fun h => h.short⟩
  by_cases hquote : c = '"'
  · exact short '"' (by rw [hquote]; rfl) (by decide) (by rw [hquote]; rfl)
  by_cases hslash : c = '\\'
  · exact short '\\' (by rw [hslash]; rfl) (by decide) (by rw [hslash]; rfl)
  by_cases hback : c = '\x08'
  · exact short 'b' (by rw [hback]; rfl) (by decide) (by rw [hback]; rfl)
  by_cases hform : c = '\x0c'
  · exact short 'f' (by rw [hform]; rfl) (by decide) (by rw [hform]; rfl)
  by_cases hfeed : c = '\n'
  · exact short 'n' (by rw [hfeed]; rfl) (by decide) (by rw [hfeed]; rfl)
  by_cases hreturn : c = '\r'
  · exact short 'r' (by rw [hreturn]; rfl) (by decide) (by rw [hreturn]; rfl)
  by_cases htab : c = '\t'
  · exact short 't' (by rw [htab]; rfl) (by decide) (by rw [htab]; rfl)
  by_cases hcontrol : c.toNat < 0x20
  · obtain ⟨digits, hhigh, hlow⟩ := unit?_control hcontrol
    refine ⟨.unit _ _ _ _ _ digits, by simp [escaped, *, Piece.text], ?_, fun h => ?_⟩
    · simp [Piece.text, hhigh.symm, hlow.symm]
    · have names := @Names.unit _ _ _ _ _ digits _ _ (by omega) h
      rwa [Char.ofNat_toNat] at names
  · exact ⟨.plain c ⟨hquote, hslash, by omega⟩, by simp [escaped, *, Piece.text],
      by simp [Piece.text, Ne.symm hfeed], fun h => h.plain⟩

theorem exists_pieces (cs : List Char) : ∃ pieces, pieces.flatMap Piece.text = cs.flatMap escaped ∧
    '\n' ∉ cs.flatMap escaped ∧ Names pieces cs := by
  induction cs with
  | nil => exact ⟨[], rfl, by simp, .nil⟩
  | cons c cs ih =>
    obtain ⟨pieces, htext, hline, names⟩ := ih
    obtain ⟨piece, hpiece, hpieceLine, hnames⟩ := exists_piece c
    refine ⟨piece :: pieces, by simp [hpiece, htext], ?_, hnames names⟩
    simp [← hpiece, hpieceLine, hline]

theorem exists_inQuotes (s : String) : ∃ pieces, inQuotes pieces = stringText s ∧
    '\n' ∉ stringText s ∧ Names pieces s.toList := by
  obtain ⟨pieces, htext, hline, names⟩ := exists_pieces s.toList
  refine ⟨pieces, by simp [inQuotes, stringText, htext], ?_, names⟩
  simpa [stringText] using hline

theorem printed_string (s : String) : Printed (.string s) := by
  obtain ⟨pieces, htext, hline, names⟩ := exists_inQuotes s
  refine ⟨?_, by simpa [Json.text] using hline⟩
  rw [Json.text, ← htext]
  exact .string names

/-- The usual digits of a number begin with a zero for the number zero alone. -/
theorem eq_zero_of_head?_toDigits {n : Nat} (h : (Nat.toDigits 10 n).head? = some '0') : n = 0 := by
  induction n using Nat.strong_induction_on with
  | _ n ih =>
    rw [Nat.toDigits_eq_if (by decide)] at h
    split at h
    next hsmall =>
      have small : ∀ n < 10, [Nat.digitChar n].head? = some '0' → n = 0 := by decide
      exact small n hsmall h
    next hlarge =>
      rw [List.head?_append_of_ne_nil _ Nat.toDigits_ne_nil] at h
      have hzero := ih (n / 10) (by omega) h
      omega

theorem printed_ofNat (n : Nat) : Printed (.ofNat n) := by
  have hdigits : allDigits (Nat.toDigits 10 n) = true := (FtpControl.Numeral.ofNat n).decimal
  have sound : Numeral.Sound { whole := Nat.toDigits 10 n } := by
    refine ⟨hdigits, fun h => ?_, nofun⟩
    rw [eq_zero_of_head?_toDigits h]
    rfl
  have htext : Json.text (.ofNat n) = Nat.toDigits 10 n := by
    simp [Json.text, Json.ofNat, Numeral.text]
  constructor
  · have hwritten := Written.number sound .none
    rw [htext, Json.ofNat]
    simpa [Numeral.stem] using hwritten
  · rw [htext]
    intro hm
    exact ne_of_isDigit ((FtpControl.Numeral.ofNat n).digit '\n' hm) rfl rfl

theorem itemsText_cons (first : Json) (more : List Json) :
    itemsText (first :: more) = first.text ++ more.flatMap fun item => ',' :: item.text := by
  induction more generalizing first with
  | nil => simp [itemsText]
  | cons second more ih => simp [itemsText, ih]

theorem membersText_cons (first : Json × Json) (more : List (Json × Json)) :
    membersText (first :: more) = memberText first ++ more.flatMap fun m => ',' :: memberText m := by
  induction more generalizing first with
  | nil => simp [membersText]
  | cons second more ih => simp [membersText, ih]

def Item.bare (value : Json) : Item :=
  ⟨[], value, value.text, [], nofun, nofun⟩

@[simp] theorem Item.bare_whole (value : Json) : (bare value).whole = value.text := by
  simp [bare, whole]

theorem printed_list {items : List Json} (h : ∀ item ∈ items, Printed item) :
    Printed (.list items) := by
  cases items with
  | nil =>
    have htext : Json.text (.list []) = '[' :: ([] ++ [']']) := by simp [Json.list, Json.text, itemsText]
    exact ⟨by rw [htext]; exact .emptyArray nofun, by rw [htext]; decide⟩
  | cons first more =>
    have htext : Json.text (.list (first :: more)) =
        '[' :: ((Item.bare first).whole ++ furtherItems (more.map .bare)) := by
      simp [Json.list, Json.text, itemsText_cons, furtherItems, List.flatMap_map]
    have hvalues : (Item.bare first :: more.map .bare).map Item.value = first :: more := by
      simp [Item.bare, Function.comp_def]
    constructor
    · have written := @Written.array (.bare first) (more.map .bare) fun item hitem => by
        rw [← List.map_cons] at hitem
        obtain ⟨value, hvalue, rfl⟩ := List.mem_map.mp hitem
        exact (h value hvalue).written
      rwa [hvalues, ← htext] at written
    · rw [htext]
      simp only [furtherItems, List.mem_cons, List.mem_append, List.mem_flatMap, List.mem_map,
        Item.bare_whole]
      rintro (hc | hc | ⟨_, ⟨value, hvalue, rfl⟩, hc | hc⟩ | hc | hc)
      · exact absurd hc (by decide)
      · exact (h first List.mem_cons_self).one_line hc
      · exact absurd hc (by decide)
      · exact (h value (List.mem_cons_of_mem _ hvalue)).one_line (by simpa using hc)
      · exact absurd hc (by decide)
      · cases hc

theorem exists_member (key : String) (value : Json) : ∃ m : Member, m.value = (.string key, value) ∧
    m.item.value = value ∧ m.item.text = value.text ∧ m.whole = memberText (.string key, value) ∧
      ('\n' ∉ value.text → '\n' ∉ m.whole) := by
  obtain ⟨pieces, htext, hline, names⟩ := exists_inQuotes key
  let m : Member := ⟨[], pieces, [], .bare value, nofun, nofun⟩
  have hwhole : m.whole = stringText key ++ ':' :: value.text := by simp [m, Member.whole, htext]
  refine ⟨m, ?_, rfl, rfl, ?_, ?_⟩
  · simp [m, Member.value, names.unescape, ofString, Item.bare]
  · rw [hwhole, memberText, Json.text]
  · intro hvalue
    simp [hwhole, hline, hvalue]

theorem printed_record {members : List (String × Json)} (h : ∀ m ∈ members, Printed m.2) :
    Printed (.record members) := by
  choose member hvalue hitem hitemText hwhole hline using exists_member
  let written (m : String × Json) : Member := member m.1 m.2
  cases members with
  | nil =>
    have htext : Json.text (.record []) = '\x7b' :: ([] ++ ['\x7d']) := by
      simp [record, Json.text, membersText]
    exact ⟨by rw [htext]; exact .emptyObject nofun, by rw [htext]; decide⟩
  | cons first more =>
    have htext : Json.text (.record (first :: more)) =
        '\x7b' :: ((written first).whole ++ furtherMembers (more.map written)) := by
      simp [record, Json.text, membersText_cons, furtherMembers, List.flatMap_map, written, hwhole]
    have hvalues : (written first :: more.map written).map Member.value = byKey (first :: more) := by
      simp [written, hvalue, byKey]
    constructor
    · have written := @Written.object (written first) (more.map written) fun m hm => by
        rw [← List.map_cons] at hm
        obtain ⟨m, hmember, rfl⟩ := List.mem_map.mp hm
        rw [hitem, hitemText]
        exact (h m hmember).written
      rwa [hvalues, ← htext] at written
    · rw [htext]
      simp only [furtherMembers, List.mem_cons, List.mem_append, List.mem_flatMap, List.mem_map]
      have hone : ∀ m ∈ first :: more, '\n' ∉ (written m).whole := fun m hm =>
        hline m.1 m.2 (h m hm).one_line
      rintro (hc | hc | ⟨_, ⟨m, hm, rfl⟩, hc | hc⟩ | hc | hc)
      · exact absurd hc (by decide)
      · exact hone first List.mem_cons_self hc
      · exact absurd hc (by decide)
      · exact hone m (List.mem_cons_of_mem _ hm) hc
      · exact absurd hc (by decide)
      · cases hc

end FtpControl.Json
