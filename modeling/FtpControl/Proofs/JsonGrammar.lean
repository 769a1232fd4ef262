import FtpControl.Json.Decode
import FtpControl.Proofs.Columns
import Mathlib.Data.List.DropRight

namespace FtpControl.Json

def Spaces (cs : List Char) : Prop :=
  ∀ c ∈ cs, isSpace c = true

/-- What stands inside a string for a character, or for one half of it. -/
inductive Piece where
  | plain (c : Char) (bare : c ≠ '"' ∧ c ≠ '\\' ∧ 0x20 ≤ c.toNat)
  | short (letter c : Char) (escape : shortEscape? letter = some c)
  | unit (a b c d : Char) (n : Nat) (digits : unit? a b c d = some n)

def Piece.text : Piece → List Char
  | .plain c _ => [c]
  | .short letter _ _ => ['\\', letter]
  | .unit a b c d _ _ => ['\\', 'u', a, b, c, d]

def inQuotes (pieces : List Piece) : List Char :=
  '"' :: (pieces.flatMap Piece.text ++ ['"'])

/-- The pieces name this text. A character beyond the first plane is a pair of units. -/
inductive Names : List Piece → List Char → Prop
  | nil : Names [] []
  | plain {c bare pieces cs} : Names pieces cs → Names (.plain c bare :: pieces) (c :: cs)
  | short {letter c escape pieces cs} :
      Names pieces cs → Names (.short letter c escape :: pieces) (c :: cs)
  | unit {a b c d n digits pieces cs} : n < 0xD800 ∨ 0xDFFF < n → Names pieces cs →
      Names (.unit a b c d n digits :: pieces) (Char.ofNat n :: cs)
  | pair {a b c d high digits a' b' c' d' low digits' pieces cs} : 0xD800 ≤ high ∧ high ≤ 0xDBFF →
      0xDC00 ≤ low ∧ low ≤ 0xDFFF → Names pieces cs →
      Names (.unit a b c d high digits :: .unit a' b' c' d' low digits' :: pieces)
        (Char.ofNat (0x10000 + 0x400 * (high - 0xD800) + (low - 0xDC00)) :: cs)

namespace Unescaped

def take (u : Unescaped) : Piece → Unescaped
  | .plain c _ | .short _ c _ => u.push c
  | .unit _ _ _ _ n _ => u.pushUnit n

end Unescaped

def unescape (pieces : List Piece) : Except Fault String :=
  (pieces.foldl Unescaped.take {}).finish

/-- The parts of a number are rows of digits, without a needless zero in front. -/
structure Numeral.Sound (n : Numeral) : Prop where
  whole : allDigits n.whole = true
  no_leading_zero : n.whole.head? = some '0' → n.whole.length = 1
  fraction : ∀ c ∈ n.fraction, isDigit c = true

inductive Exponent : Option (Bool × List Char) → List Char → Prop
  | none : Exponent none []
  | some {mark sign negative digits} : mark = 'e' ∨ mark = 'E' →
      negative = true ∧ sign = ['-'] ∨ negative = false ∧ (sign = [] ∨ sign = ['+']) →
      allDigits digits = true → Exponent (some (negative, digits)) (mark :: (sign ++ digits))

def Numeral.stem (n : Numeral) : List Char :=
  (if n.negative then ['-'] else []) ++
    (n.whole ++ if n.fraction.isEmpty then [] else '.' :: n.fraction)

structure Item where
  before : List Char
  value : Json
  text : List Char
  after : List Char
  spaced : Spaces before ∧ Spaces after

def Item.whole (item : Item) : List Char :=
  item.before ++ (item.text ++ item.after)

def furtherItems (more : List Item) : List Char :=
  more.flatMap (fun item => ',' :: item.whole) ++ [']']

structure Member where
  before : List Char
  key : List Piece
  after : List Char
  item : Item
  spaced : Spaces before ∧ Spaces after

def Member.whole (m : Member) : List Char :=
  m.before ++ (inQuotes m.key ++ (m.after ++ ':' :: m.item.whole))

def Member.value (m : Member) : Json × Json :=
  (ofString (unescape m.key), m.item.value)

def furtherMembers (more : List Member) : List Char :=
  more.flatMap (fun m => ',' :: m.whole) ++ ['\x7d']

/-- The texts that a value is written in, from its first character to its last. -/
inductive Written : Json → List Char → Prop
  | null : Written .null "null".toList
  | yes : Written (.bool true) "true".toList
  | no : Written (.bool false) "false".toList
  | number {n exponent} : n.Sound → Exponent n.exponent exponent →
      Written (.number n) (n.stem ++ exponent)
  | string {pieces s} : Names pieces s.toList → Written (.string s) (inQuotes pieces)
  | unusable {pieces why} : unescape pieces = .error why → Written (.unusable why) (inQuotes pieces)
  | emptyArray {space} : Spaces space → Written (.array [] none) ('[' :: (space ++ [']']))
  | array {first : Item} {more : List Item} :
      (∀ item ∈ first :: more, Written item.value item.text) →
      Written (.array ((first :: more).map Item.value) none)
        ('[' :: (first.whole ++ furtherItems more))
  | emptyObject {space} : Spaces space → Written (.object [] none) ('\x7b' :: (space ++ ['\x7d']))
  | object {first : Member} {more : List Member} :
      (∀ m ∈ first :: more, Written m.item.value m.item.text) →
      Written (.object ((first :: more).map Member.value) none)
        ('\x7b' :: (first.whole ++ furtherMembers more))

/-- The whole text of a value, with the space around it. -/
def Document (value : Json) (text : List Char) : Prop :=
  ∃ item : Item, Written item.value item.text ∧ item.value = value ∧ item.whole = text

namespace Unescaped

theorem push_ok {cs : List Char} (c : Char) :
    push { text := .ok cs } c = { text := .ok (c :: cs) } := rfl

theorem pushUnit_plain {cs : List Char} {n : Nat} (h : n < 0xD800 ∨ 0xDFFF < n) :
    pushUnit { text := .ok cs } n = { text := .ok (Char.ofNat n :: cs) } := by
  have hlow : ¬(0xDC00 ≤ n ∧ n ≤ 0xDFFF) := by omega
  have hhigh : ¬(0xD800 ≤ n ∧ n ≤ 0xDBFF) := by omega
  simp [pushUnit, hlow, hhigh, Except.map]

theorem pushUnit_high {cs : List Char} {n : Nat} (h : 0xD800 ≤ n ∧ n ≤ 0xDBFF) :
    pushUnit { text := .ok cs } n = { text := .ok cs, high := some n } := by
  have hlow : ¬(0xDC00 ≤ n ∧ n ≤ 0xDFFF) := by omega
  simp [pushUnit, hlow, h]

theorem pushUnit_low {cs : List Char} {high n : Nat} (h : 0xDC00 ≤ n ∧ n ≤ 0xDFFF) :
    pushUnit { text := .ok cs, high := some high } n =
      { text := .ok (Char.ofNat (0x10000 + 0x400 * (high - 0xD800) + (n - 0xDC00)) :: cs) } := by
  simp [pushUnit, h, Except.map]

end Unescaped

theorem Names.foldl {pieces : List Piece} {cs : List Char} (h : Names pieces cs) (found : List Char) :
    pieces.foldl Unescaped.take { text := .ok found } = { text := .ok (cs.reverse ++ found) } := by
  induction h generalizing found with
  | nil => rfl
  | plain _ ih =>
    rw [List.foldl_cons, Unescaped.take, Unescaped.push_ok, ih]
    simp
  | short _ ih =>
    rw [List.foldl_cons, Unescaped.take, Unescaped.push_ok, ih]
    simp
  | unit hn _ ih =>
    rw [List.foldl_cons, Unescaped.take, Unescaped.pushUnit_plain hn, ih]
    simp
  | pair hhigh hlow _ ih =>
    rw [List.foldl_cons, List.foldl_cons, Unescaped.take, Unescaped.take,
      Unescaped.pushUnit_high hhigh, Unescaped.pushUnit_low hlow, ih]
    simp

theorem Names.unescape {pieces : List Piece} {s : String} (h : Names pieces s.toList) :
    unescape pieces = .ok s := by
  have hfold : pieces.foldl Unescaped.take {} = { text := .ok (s.toList.reverse ++ []) } := h.foldl []
  rw [Json.unescape, hfold]
  simp [Unescaped.finish, Except.map]

/-- The pieces are taken one by one up to the quote behind them. -/
theorem readString_pieces (pieces : List Piece) (u : Unescaped) (rest : List Char) :
    readString u (pieces.flatMap Piece.text ++ '"' :: rest) =
      .ok ((pieces.foldl Unescaped.take u).finish, rest) := by
  induction pieces generalizing u with
  | nil => simp [readString]
  | cons piece pieces ih =>
    rw [List.flatMap_cons, List.append_assoc, List.foldl_cons, ← ih]
    cases piece with
    | plain c bare =>
      have hcontrol : ¬ c.toNat < 0x20 := by omega
      rw [Piece.text, List.singleton_append, readString]
      · simp [hcontrol, Unescaped.take]
      all_goals simp [bare]
    | short letter c escape =>
      have hu : letter ≠ 'u' := by
        rintro rfl
        simp [shortEscape?] at escape
      rw [Piece.text, List.cons_append, List.singleton_append, readString]
      · simp [escape, Unescaped.take]
      all_goals simp [hu]
    | unit a b c d n digits =>
      simp only [Piece.text, List.cons_append, List.nil_append, readString, digits, Unescaped.take]

/-- The text does not go on with a number. -/
def Closed (rest : List Char) : Prop :=
  ∀ c ∈ rest.head?, isDigit c = false ∧ c ≠ '.' ∧ c ≠ 'e' ∧ c ≠ 'E'

theorem digits_cons {ds : List Char} (h : allDigits ds = true) :
    ∃ d rest, ds = d :: rest ∧ isDigit d = true ∧ ∀ c ∈ d :: rest, isDigit c = true := by
  cases ds with
  | nil => simp [allDigits] at h
  | cons d ds =>
    have hall : ∀ c ∈ d :: ds, isDigit c = true := by simpa [allDigits] using h
    exact ⟨d, ds, rfl, hall d List.mem_cons_self, hall⟩

theorem readDigits_append {ds : List Char} (h : allDigits ds = true) {rest : List Char}
    (hrest : ∀ c ∈ rest.head?, isDigit c = false) : readDigits (ds ++ rest) = .ok (ds, rest) := by
  obtain ⟨d, ds, rfl, hd, hall⟩ := digits_cons h
  obtain ⟨htake, hdrop⟩ := span_digits hall hrest
  rw [List.cons_append] at htake hdrop ⊢
  simp only [readDigits, hd, htake, hdrop, ↓reduceIte]

theorem readExponent_append {exponent : Option (Bool × List Char)} {text rest : List Char}
    (h : Exponent exponent text) (closed : Closed rest) :
    readExponent (text ++ rest) = .ok (exponent, rest) := by
  cases h with
  | none =>
    cases rest with
    | nil => rfl
    | cons c rest =>
      have hc := closed c rfl
      simp [readExponent, hc]
  | @some mark sign negative digits hmark hsign hdigits =>
    have hread := readDigits_append hdigits fun c hc => (closed c hc).1
    rcases hsign with ⟨rfl, rfl⟩ | ⟨rfl, rfl | rfl⟩
    · change readExponent (mark :: '-' :: (digits ++ rest)) = _
      simp [readExponent, hmark, hread, bind, Except.bind]
    · obtain ⟨d, ds, rfl, hd, _⟩ := digits_cons hdigits
      have hminus : d ≠ '-' := ne_of_isDigit hd rfl
      have hplus : d ≠ '+' := ne_of_isDigit hd rfl
      change readExponent (mark :: d :: (ds ++ rest)) = _
      rw [List.cons_append] at hread
      simp [readExponent, hmark, hminus, hplus, hread, bind, Except.bind]
    · change readExponent (mark :: '+' :: (digits ++ rest)) = _
      simp [readExponent, hmark, hread, bind, Except.bind]

theorem Exponent.not_digit {exponent : Option (Bool × List Char)} {text rest : List Char}
    (h : Exponent exponent text) (closed : Closed rest) :
    ∀ c ∈ (text ++ rest).head?, isDigit c = false ∧ c ≠ '.' := by
  cases h with
  | none => exact fun c hc => ⟨(closed c hc).1, (closed c hc).2.1⟩
  | some hmark =>
    intro c hc
    obtain rfl := Option.some.inj hc
    rcases hmark with rfl | rfl <;> exact ⟨rfl, by decide⟩

theorem readFraction_append {fraction tail : List Char} (digits : ∀ c ∈ fraction, isDigit c = true)
    (behind : ∀ c ∈ tail.head?, isDigit c = false ∧ c ≠ '.') :
    readFraction ((if fraction.isEmpty then [] else '.' :: fraction) ++ tail) = .ok (fraction, tail) := by
  cases fraction with
  | nil =>
    cases tail with
    | nil => rfl
    | cons c tail =>
      have hc := (behind c rfl).2
      simp [readFraction, hc]
  | cons d fraction =>
    have hall : allDigits (d :: fraction) = true := by simpa [allDigits] using digits
    exact readDigits_append hall fun c hc => (behind c hc).1

theorem readWhole_append {whole tail : List Char} (digits : allDigits whole = true)
    (no_leading_zero : whole.head? = some '0' → whole.length = 1)
    (behind : ∀ c ∈ tail.head?, isDigit c = false) :
    readWhole (whole ++ tail) = .ok (whole, tail) := by
  have hzero : ¬(whole.head? = some '0' ∧ whole.length ≠ 1) := fun h => h.2 (no_leading_zero h.1)
  simp only [readWhole, readDigits_append digits behind, bind, Except.bind, hzero, ↓reduceIte]

theorem readNumber_append {n : Numeral} (sound : n.Sound) {exponent rest : List Char}
    (written : Exponent n.exponent exponent) (closed : Closed rest) :
    readNumber (n.stem ++ exponent ++ rest) = .ok (n, rest) := by
  obtain ⟨negative, whole, fraction, exp⟩ := n
  have hbehind := written.not_digit closed
  have hexponent := readExponent_append written closed
  have hfraction := readFraction_append sound.fraction hbehind
  have hpoint : ∀ c ∈ ((if fraction.isEmpty then [] else '.' :: fraction) ++
      (exponent ++ rest)).head?, isDigit c = false := by
    intro c hc
    cases fraction with
    | nil => exact (hbehind c hc).1
    | cons d fraction =>
      obtain rfl := Option.some.inj hc
      rfl
  have hwhole := readWhole_append sound.whole sound.no_leading_zero hpoint
  simp only [Numeral.stem, List.append_assoc]
  dsimp only at hfraction hexponent ⊢
  generalize (if fraction.isEmpty then [] else '.' :: fraction) = part at hfraction hwhole ⊢
  cases negative with
  | true =>
    simp only [↓reduceIte, List.singleton_append, readNumber, hwhole, hfraction, hexponent, bind,
      Except.bind]
  | false =>
    obtain ⟨d, ds, rfl, hd, _⟩ := digits_cons sound.whole
    have hminus : d ≠ '-' := ne_of_isDigit hd rfl
    simp only [List.cons_append] at hwhole
    simp [readNumber, hminus, hwhole, hfraction, hexponent, bind, Except.bind]

end FtpControl.Json
