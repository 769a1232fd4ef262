import FtpControl.Session

namespace FtpControl

/-- The code of the reply is in use and the command did not fail. -/
def Reply.Favourable (r : Reply) : Prop :=
  (1 ≤ r.number.val ∧ r.number.val ≤ 399) ∨ (600 ≤ r.number.val ∧ r.number.val ≤ 699)

theorem Reply.negative_iff (r : Reply) :
    r.negative = true ↔ 400 ≤ r.number.val ∧ r.number.val ≤ 599 := by
  have hn : r.number.val < 1000 := r.number.isLt
  simp only [negative, transient, permanent, Bool.or_eq_true, beq_iff_eq]
  omega

theorem Reply.favourable_iff (r : Reply) :
    r.Favourable ↔ r.negative = false ∧ 1 ≤ r.number.val ∧ r.number.val ≤ 699 := by
  have hn := r.negative_iff
  unfold Favourable
  cases h : r.negative with
  | true =>
    have hr := hn.mp h
    simp only [reduceCtorEq, false_and, iff_false]
    omega
  | false =>
    have hr : ¬(400 ≤ r.number.val ∧ r.number.val ≤ 599) := fun hr => by
      simp [hn.mpr hr] at h
    simp only [true_and]
    omega

namespace Reply

theorem digits_of_number? {a b c : Char} {number : Fin 1000} (h : number? a b c = some number) :
    isDigit a = true ∧ isDigit b = true ∧ isDigit c = true := by
  unfold number? at h
  dsimp only at h
  split at h
  next hd =>
    have hdigits := hd.1
    simp only [Bool.and_eq_true] at hdigits
    exact ⟨hdigits.1.1, hdigits.1.2, hdigits.2⟩
  next => simp at h

/-- What stands between the code and the text. -/
def separator (last : Bool) : List Char :=
  if last then [' '] else ['-', ' ']

theorem ofLine?_eq_some {line : List Char} {reply : Reply} :
    ofLine? line = some reply ↔ ∃ a b c, number? a b c = some reply.number ∧
      line = a :: b :: c :: (separator reply.last ++ reply.text) := by
  constructor
  · intro h
    unfold ofLine? at h
    split at h
    next a b c text =>
      obtain ⟨number, hn, rfl⟩ := Option.map_eq_some_iff.mp h
      exact ⟨a, b, c, hn, rfl⟩
    next a b c text =>
      obtain ⟨number, hn, rfl⟩ := Option.map_eq_some_iff.mp h
      exact ⟨a, b, c, hn, rfl⟩
    next => simp at h
  · rintro ⟨a, b, c, hn, rfl⟩
    obtain ⟨number, last, text⟩ := reply
    cases last with
    | true => exact Option.map_eq_some_iff.mpr ⟨number, hn, rfl⟩
    | false => exact Option.map_eq_some_iff.mpr ⟨number, hn, rfl⟩

theorem head_of_ofLine? {line : List Char} {reply : Reply} (h : ofLine? line = some reply) :
    ∃ c, line.head? = some c ∧ isDigit c = true := by
  obtain ⟨a, b, c, hn, rfl⟩ := ofLine?_eq_some.mp h
  obtain ⟨ha, _⟩ := digits_of_number? hn
  exact ⟨a, rfl, ha⟩

end Reply

namespace Session

variable {line : String} {reply : Reply}

theorem judge_invalid_iff : judge line = .invalid ↔ Reply.ofLine? line.toList = none := by
  unfold judge
  cases h : Reply.ofLine? line.toList with
  | none => simp
  | some reply =>
    simp only [reduceCtorEq, iff_false]
    split
    next => nofun
    next =>
      split
      next => nofun
      next => split <;> nofun

theorem judge_continued_iff (h : Reply.ofLine? line.toList = some reply) :
    judge line = .continued ↔ reply.last = false := by
  simp only [judge, h]
  by_cases hl : reply.last = true
  · simp only [hl, not_true_eq_false, ↓reduceIte, Bool.true_eq_false, iff_false]
    split
    next => nofun
    next => split <;> nofun
  · simp [hl]

theorem judge_accepted (h : Reply.ofLine? line.toList = some reply) (last : reply.last = true)
    (good : reply.Favourable) : judge line = .accepted (UInt16.ofNat reply.number.val) := by
  obtain ⟨hn, hr⟩ := reply.favourable_iff.mp good
  simp [judge, h, last, hn, Reply.code, hr]

theorem judge_refused (h : Reply.ofLine? line.toList = some reply) (last : reply.last = true)
    (bad : ¬reply.Favourable) : ∃ message, judge line = .refused message := by
  cases hn : reply.negative with
  | true => exact ⟨line, by simp [judge, h, last, hn]⟩
  | false =>
    have hr : ¬(1 ≤ reply.number.val ∧ reply.number.val ≤ 699) := fun hr =>
      bad (reply.favourable_iff.mpr ⟨hn, hr⟩)
    refine ⟨(Failure.outOfRange (UInt16.ofNat reply.number.val)).message, ?_⟩
    simp [judge, h, last, hn, Reply.code, hr]

theorem reply_of_accepted {code : UInt16} (h : judge line = .accepted code) :
    ∃ reply, Reply.ofLine? line.toList = some reply ∧ reply.last = true ∧ reply.Favourable ∧
      code = UInt16.ofNat reply.number.val := by
  cases hl : Reply.ofLine? line.toList with
  | none => simp [judge_invalid_iff.mpr hl] at h
  | some reply =>
    cases last : reply.last with
    | false => simp [(judge_continued_iff hl).mpr last] at h
    | true =>
      by_cases good : reply.Favourable
      · rw [judge_accepted hl last good] at h
        exact ⟨reply, rfl, last, good, (Verdict.accepted.inj h).symm⟩
      · obtain ⟨message, hm⟩ := judge_refused hl last good
        simp [hm] at h

end Session

end FtpControl
