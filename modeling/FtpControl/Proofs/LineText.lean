import FtpControl.Transport.LineBuffer
import Mathlib.Data.List.Induction

namespace FtpControl

namespace Utf8

theorem step_of_lead {found : List (Option Char)} {byte : UInt8} {p : Pending}
    (h : lead? byte.toNat = some p) : Scan.step { found } byte = Scan.put found p := by
  simp only [Scan.step, Scan.start, h]

theorem step_of_next {found : List (Option Char)} {byte : UInt8} {p : Pending}
    (hlow : p.low ≤ byte.toNat) (hhigh : byte.toNat ≤ p.high) :
    Scan.step { found, pending := some p } byte =
      Scan.put found { bits := 64 * p.bits + byte.toNat % 64, missing := p.missing - 1 } := by
  simp only [Scan.step, hlow, hhigh, and_self, ↓reduceIte]

theorem put_complete (found : List (Option Char)) {p : Pending} (h : p.missing = 0) :
    Scan.put found p = { found := some (Char.ofNat p.bits) :: found } := by
  simp only [Scan.put, h, ↓reduceIte]

theorem put_pending (found : List (Option Char)) {p : Pending} (h : p.missing ≠ 0) :
    Scan.put found p = { found, pending := some p } := by
  simp only [Scan.put, h, ↓reduceIte]

theorem lead?_two {n : Nat} (h : 2 ≤ n) (hn : n < 32) :
    lead? (n + 0xC0) = some { bits := n, missing := 1 } := by
  have h1 : ¬ n + 0xC0 < 0x80 := by omega
  have h2 : ¬ n + 0xC0 < 0xC2 := by omega
  have h3 : n + 0xC0 < 0xE0 := by omega
  simp only [lead?, h1, h2, h3, ↓reduceIte, Nat.add_sub_cancel]

/-- The second byte of three is narrowed where the first one alone admits too much. -/
theorem lead?_three {n : Nat} (hn : n < 16) :
    lead? (n + 0xE0) = some { bits := n, missing := 2, low := if n = 0 then 0xA0 else 0x80
                              high := if n = 13 then 0x9F else 0xBF } := by
  have h1 : ¬ n + 0xE0 < 0x80 := by omega
  have h2 : ¬ n + 0xE0 < 0xC2 := by omega
  have h3 : ¬ n + 0xE0 < 0xE0 := by omega
  have h4 : n + 0xE0 < 0xF0 := by omega
  simp only [lead?, h1, h2, h3, h4, ↓reduceIte, Nat.add_sub_cancel]
  by_cases hzero : n = 0
  · simp [hzero]
  · by_cases hlast : n = 13
    · simp [hlast]
    · have h5 : ¬ n + 0xE0 = 0xE0 := by omega
      have h6 : ¬ n + 0xE0 = 0xED := by omega
      simp only [h5, h6, hzero, hlast, ↓reduceIte]

theorem lead?_four {n : Nat} (hn : n < 5) :
    lead? (n + 0xF0) = some { bits := n, missing := 3, low := if n = 0 then 0x90 else 0x80
                              high := if n = 4 then 0x8F else 0xBF } := by
  obtain rfl | rfl | rfl | rfl | rfl : n = 0 ∨ n = 1 ∨ n = 2 ∨ n = 3 ∨ n = 4 := by omega
  all_goals rfl

theorem toNat_next (n : Nat) : (UInt8.ofNat (n % 64 + 0x80)).toNat = n % 64 + 0x80 := by
  rw [UInt8.toNat_ofNat']
  omega

theorem foldl_encodeChar (found : List (Option Char)) (c : Char) :
    (String.utf8EncodeChar c).foldl Scan.step { found } = { found := some c :: found } := by
  have hc : Char.ofNat c.val.toNat = c := Char.ofNat_toNat c
  have hvalid : c.val.toNat < 0xD800 ∨ 0xDFFF < c.val.toNat ∧ c.val.toNat < 0x110000 := c.valid
  have next : ∀ (p : Pending) (n : Nat), p.low ≤ n % 64 + 0x80 → n % 64 + 0x80 ≤ p.high →
      Scan.step { found, pending := some p } (UInt8.ofNat (n % 64 + 0x80)) =
        Scan.put found { bits := 64 * p.bits + n % 64, missing := p.missing - 1 } := by
    intro p n hlow hhigh
    rw [step_of_next (by rwa [toNat_next]) (by rwa [toNat_next]), toNat_next]
    congr 2
    omega
  generalize hv : c.val.toNat = v at hc hvalid
  unfold String.utf8EncodeChar
  simp only [hv]
  split
  next h =>
    have hlead : lead? (UInt8.ofNat v).toNat = some { bits := v, missing := 0 } := by
      have hb : (UInt8.ofNat v).toNat = v := by
        rw [UInt8.toNat_ofNat']
        omega
      have hlow : v < 0x80 := by omega
      simp only [hb, lead?, hlow, ↓reduceIte]
    rw [List.foldl_cons, List.foldl_nil, step_of_lead hlead, put_complete found rfl, hc]
  next h1 =>
    split
    next h =>
      have hb : (UInt8.ofNat (v / 64 % 32 + 0xC0)).toNat = v / 64 % 32 + 0xC0 := by
        rw [UInt8.toNat_ofNat']
        omega
      have hlead := lead?_two (n := v / 64 % 32) (by omega) (by omega)
      rw [← hb] at hlead
      have hbits : 64 * (v / 64 % 32) + v % 64 = v := by omega
      simp only [List.foldl_cons, List.foldl_nil]
      rw [step_of_lead hlead, put_pending found (by simp), next _ v (by simp) (by simp; omega),
        put_complete found rfl]
      simp only [hbits, hc]
    next h2 =>
      split
      next h =>
        have hb : (UInt8.ofNat (v / 4096 % 16 + 0xE0)).toNat = v / 4096 % 16 + 0xE0 := by
          rw [UInt8.toNat_ofNat']
          omega
        have hlead := lead?_three (n := v / 4096 % 16) (by omega)
        rw [← hb] at hlead
        have hbits : 64 * (64 * (v / 4096 % 16) + v / 64 % 64) + v % 64 = v := by omega
        simp only [List.foldl_cons, List.foldl_nil]
        rw [step_of_lead hlead, put_pending found (by simp), next _ (v / 64) ?_ ?_,
          put_pending found (by simp), next _ v (by simp) (by simp; omega), put_complete found (by simp)]
        · simp only [hbits, hc]
        · simp only
          split <;> omega
        · simp only
          split <;> omega
      next h3 =>
        have hb : (UInt8.ofNat (v / 262144 % 8 + 0xF0)).toNat = v / 262144 % 8 + 0xF0 := by
          rw [UInt8.toNat_ofNat']
          omega
        have hlead := lead?_four (n := v / 262144 % 8) (by omega)
        rw [← hb] at hlead
        have hbits : 64 * (64 * (64 * (v / 262144 % 8) + v / 4096 % 64) + v / 64 % 64) + v % 64 = v := by
          omega
        simp only [List.foldl_cons, List.foldl_nil]
        rw [step_of_lead hlead, put_pending found (by simp), next _ (v / 4096) ?_ ?_,
          put_pending found (by simp), next _ (v / 64) (by simp) (by simp; omega),
          put_pending found (by simp), next _ v (by simp) (by simp; omega), put_complete found (by simp)]
        · simp only [hbits, hc]
        · simp only
          split <;> omega
        · simp only
          split <;> omega

theorem foldl_encode (found : List (Option Char)) (cs : List Char) :
    (encode cs).foldl Scan.step { found } = { found := (cs.map some).reverse ++ found } := by
  induction cs generalizing found with
  | nil => rfl
  | cons c cs ih =>
    have hsplit : encode (c :: cs) = String.utf8EncodeChar c ++ encode cs := rfl
    rw [hsplit, List.foldl_append, foldl_encodeChar, ih]
    simp

theorem decode_encode (cs : List Char) : decode (encode cs) = cs := by
  have hscan : scan (encode cs) = cs.map some := by
    rw [scan, foldl_encode, List.append_nil]
    exact List.reverse_reverse _
  rw [decode, hscan, List.map_map]
  exact List.map_id cs

/-- A byte below 128 comes from one character alone. -/
theorem toNat_of_mem_encodeChar {c : Char} {b : UInt8} (hb : b.toNat < 0x80)
    (h : b ∈ String.utf8EncodeChar c) : c.toNat = b.toNat := by
  have high : ∀ n, 0x80 ≤ n → n < 256 → b ≠ UInt8.ofNat n := by
    intro n hlow hhigh he
    have hn := congrArg UInt8.toNat he
    rw [UInt8.toNat_ofNat', Nat.mod_eq_of_lt hhigh] at hn
    omega
  unfold String.utf8EncodeChar at h
  dsimp only at h
  split at h
  next hsmall =>
    have hn := congrArg UInt8.toNat (List.mem_singleton.mp h)
    rw [UInt8.toNat_ofNat', Nat.mod_eq_of_lt (by omega)] at hn
    exact hn.symm
  next =>
    exfalso
    split at h
    next =>
      simp only [List.mem_cons, List.not_mem_nil, or_false] at h
      rcases h with h | h
      all_goals exact high _ (by omega) (by omega) h
    next =>
      split at h
      next =>
        simp only [List.mem_cons, List.not_mem_nil, or_false] at h
        rcases h with h | h | h
        all_goals exact high _ (by omega) (by omega) h
      next =>
        simp only [List.mem_cons, List.not_mem_nil, or_false] at h
        rcases h with h | h | h | h
        all_goals exact high _ (by omega) (by omega) h

theorem not_mem_encode {cs : List Char} {c : Char} {b : UInt8} (hb : b.toNat < 0x80)
    (hc : c.toNat = b.toNat) (hn : c ∉ cs) : b ∉ encode cs := by
  intro hm
  obtain ⟨other, ho, hother⟩ := List.mem_flatMap.mp hm
  have hsame : other = c :=
    Char.ext (UInt32.toNat_inj.mp ((toNat_of_mem_encodeChar hb hother).trans hc.symm))
  exact hn (hsame ▸ ho)

theorem feed_not_mem_encode {cs : List Char} (hn : '\n' ∉ cs) : LineBuffer.feed ∉ encode cs :=
  not_mem_encode (by decide) rfl hn

end Utf8

theorem blankText_iff {cs : List Char} : blankText cs = true ↔ ∀ c ∈ cs, isBlank c = true := by
  simp [blankText]

theorem trimEnd_append_of_blank (cs : List Char) {blanks : List Char} (h : blankText blanks = true) :
    trimEnd (cs ++ blanks) = trimEnd cs := by
  have hall : ∀ c ∈ blanks.reverse, isBlank c = true := fun c hc =>
    blankText_iff.mp h c (List.mem_reverse.mp hc)
  rw [trimEnd, List.reverse_append, List.dropWhile_append_of_pos hall]
  rfl

theorem trimEnd_of_blank {cs : List Char} (h : blankText cs = true) : trimEnd cs = [] :=
  trimEnd_append_of_blank [] h

theorem trimEnd_of_last {cs : List Char} {c : Char} (h : isBlank c = false) :
    trimEnd (cs ++ [c]) = cs ++ [c] := by
  simp [trimEnd, h]

/-- What stands before a text that is not blank is left as it is. -/
theorem trimEnd_append (cs : List Char) {more : List Char} (h : blankText more = false) :
    trimEnd (cs ++ more) = cs ++ trimEnd more := by
  induction more using List.reverseRecOn with
  | nil => simp [blankText] at h
  | append_singleton more c ih =>
    cases hc : isBlank c with
    | false =>
      rw [← List.append_assoc, trimEnd_of_last hc, trimEnd_of_last hc, List.append_assoc]
    | true =>
      have hlast : blankText [c] = true := by simp [blankText, hc]
      have hmore : blankText more = false := by simpa [blankText, hc] using h
      rw [← List.append_assoc, trimEnd_append_of_blank _ hlast, trimEnd_append_of_blank _ hlast]
      exact ih hmore

theorem isDigit_iff {c : Char} : isDigit c = true ↔ 48 ≤ c.toNat ∧ c.toNat ≤ 57 := by
  simp only [isDigit, Bool.and_eq_true, decide_eq_true_eq]
  exact and_congr UInt32.le_iff_toNat_le UInt32.le_iff_toNat_le

theorem isBlank_of_isDigit {c : Char} (h : isDigit c = true) : isBlank c = false := by
  have hd := isDigit_iff.mp h
  simp only [isBlank, Bool.or_eq_false_iff, Bool.and_eq_false_iff, decide_eq_false_iff_not,
    beq_eq_false_iff_ne]
  omega

theorem ne_of_isDigit {c other : Char} (h : isDigit c = true) (hother : isDigit other = false) :
    c ≠ other := by
  rintro rfl
  rw [h] at hother
  cases hother

theorem span_digits {ds rest : List Char} (h : ∀ c ∈ ds, isDigit c = true)
    (hrest : ∀ c ∈ rest.head?, isDigit c = false) :
    (ds ++ rest).takeWhile isDigit = ds ∧ (ds ++ rest).dropWhile isDigit = rest := by
  rw [List.takeWhile_append_of_pos h, List.dropWhile_append_of_pos h]
  cases rest with
  | nil => simp
  | cons c rest => simp [hrest c rfl]

theorem exists_blanks (cs : List Char) : ∃ blanks, cs = trimEnd cs ++ blanks ∧ blankText blanks = true := by
  refine ⟨(cs.reverse.takeWhile isBlank).reverse, ?_, ?_⟩
  · rw [trimEnd, ← List.reverse_append, List.takeWhile_append_dropWhile, List.reverse_reverse]
  · rw [blankText_iff]
    intro c hc
    exact List.all_eq_true.mp List.all_takeWhile c (List.mem_reverse.mp hc)

namespace LineBuffer

theorem text_encode (cs : List Char) : text (Utf8.encode cs) = String.ofList (trimEnd cs) := by
  rw [text, Utf8.decode_encode]

/-- The carriage return before the line feed belongs to the bytes of the line. -/
theorem encode_eq (line : String) :
    encode line = Utf8.encode (line.toList ++ ['\r']) ++ feed :: [] := by
  have hreturn : Utf8.encode ['\r'] = [13] := by decide
  have hsplit : Utf8.encode (line.toList ++ ['\r']) = Utf8.encode line.toList ++ Utf8.encode ['\r'] :=
    List.flatMap_append
  rw [encode, hsplit, hreturn]
  simp

end LineBuffer

end FtpControl
