import FtpControl.Proofs.ReplyJudgement
import FtpControl.Proofs.Wire

namespace FtpControl

def Command.stage : Command → Stage
  | .authTls => .awaitingAuthTls
  | .pbszZero => .awaitingPbsz
  | .user _ => .awaitingUser
  | .pass _ => .awaitingPass
  | .cwd _ => .awaitingCwd
  | .pwd => .awaitingPwd
  | .statList => .awaitingStat
  | .dele _ | .mkd _ | .site _ | .feat | .pasv => .notConnected

def Reply.Continues (stage : Stage) (line : String) : Prop :=
  match ofLine? line.toList with
  | none => stage = .awaitingStat
  | some reply => reply.last = false

def Reply.Spoils (stage : Stage) (line : String) : Prop :=
  match ofLine? line.toList with
  | none => stage ≠ .awaitingStat
  | some reply => reply.last = true ∧ ¬reply.Favourable

namespace Deed

def Quiet (allowed : Stage → String → Prop) (deeds : List Deed) : Prop :=
  ∀ d ∈ deeds, (∀ stream line, d ≠ .began stream line) ∧
    ∀ stage bytes line, d = .heard stage bytes line → allowed stage line

/-- The welcome, or the reply to the last command, is read at this stage and is not at its end. -/
def Pending (stage : Stage) (deeds : List Deed) : Prop :=
  ∃ asked since, deeds = asked ++ since ∧
    (asked = [] ∧ stage = .awaitingWelcome ∨
      ∃ (first : List Deed) (stream : Stream) (command : Command),
        asked = first ++ [.began stream command.line] ∧ command.stage = stage) ∧
    Quiet (fun at' line => at' = stage ∧ Reply.Continues stage line) since

/-- This reply, which was due at this stage, has come to a good end. -/
structure Answered (deeds : List Deed) (stage : Stage) (line : String) (since : List Deed) : Prop where
  due : ∃ asked bytes, deeds = asked ++ .heard stage bytes line :: since ∧ Pending stage asked
  good : ∃ reply, Reply.ofLine? line.toList = some reply ∧ reply.last = true ∧ reply.Favourable
  quiet : Quiet (fun at' _ => at' = .loggedIn) since

def Cleared (c : Nat) (stage : Stage) (line : String) (since : List Deed) : Prop :=
  (stage = .awaitingAuthTls → .secured c ∈ since) ∧
    (stage = .awaitingPwd → ∃ path, Reply.ofLine line.toList >>= Reply.quotedPath = .ok path)

theorem Quiet.append {allowed : Stage → String → Prop} {deeds : List Deed} {d : Deed}
    (h : Quiet allowed deeds) (hb : ∀ stream line, d ≠ .began stream line)
    (hl : ∀ stage bytes line, d = .heard stage bytes line → allowed stage line) :
    Quiet allowed (deeds ++ [d]) := by
  intro other ho
  rcases List.mem_append.mp ho with ho | ho
  · exact h other ho
  · rw [List.mem_singleton.mp ho]
    exact ⟨hb, hl⟩

theorem Pending.append {stage : Stage} {deeds : List Deed} {d : Deed} (h : Pending stage deeds)
    (hb : ∀ stream line, d ≠ .began stream line)
    (hl : ∀ at' bytes line, d = .heard at' bytes line → at' = stage ∧ Reply.Continues stage line) :
    Pending stage (deeds ++ [d]) := by
  obtain ⟨asked, since, rfl, hasked, quiet⟩ := h
  exact ⟨asked, since ++ [d], List.append_assoc _ _ _, hasked, quiet.append hb hl⟩

theorem Answered.append {deeds since : List Deed} {stage : Stage} {line : String} {d : Deed}
    (h : Answered deeds stage line since) (hb : ∀ stream line, d ≠ .began stream line)
    (hl : ∀ at' bytes line, d = .heard at' bytes line → at' = .loggedIn) :
    Answered (deeds ++ [d]) stage line (since ++ [d]) := by
  obtain ⟨⟨asked, bytes, rfl, pending⟩, good, quiet⟩ := h
  exact ⟨⟨asked, bytes, by simp, pending⟩, good, quiet.append hb hl⟩

theorem Cleared.append {c : Nat} {stage : Stage} {line : String} {since : List Deed}
    (h : Cleared c stage line since) (d : Deed) : Cleared c stage line (since ++ [d]) :=
  ⟨fun hs => List.mem_append_left _ (h.1 hs), h.2⟩

end Deed

/-- A reply is due, or it has come to a good end, as the dialogue stands. -/
def Link.Replied (deeds : List Deed) (link : Link) : Prop :=
  match link.standing with
  | .due stage => Deed.Pending stage (Deed.latest deeds)
  | .granted stage => ∃ line since, Deed.Answered (Deed.latest deeds) stage line since
  | .encrypted | .ready => ∃ stage line since, Deed.Answered (Deed.latest deeds) stage line since ∧
      Deed.Cleared link.stream.connection stage line since

theorem Permits.stage_eq {p : Profile} {standing : Standing} {command : Command} {stage : Stage}
    (h : Permits p standing command stage) : command.stage = stage := by
  cases h <;> rfl

theorem Permits.answered {p : Profile} {deeds : List Deed} {link : Link} {command : Command}
    {stage : Stage} (h : Permits p link.standing command stage) (replied : link.Replied deeds) :
    ∃ stage line since, Deed.Answered (Deed.latest deeds) stage line since ∧
      Deed.Cleared link.stream.connection stage line since := by
  unfold Link.Replied at replied
  generalize link.standing = standing at h replied
  cases h with
  | authTls _ | user _ _ | userEncrypted _ | pass _ | pwd =>
    obtain ⟨line, since, answered⟩ := replied
    exact ⟨_, line, since, answered, nofun, nofun⟩
  | pbszZero | cwd _ | statList => exact replied

theorem Reply.continues_of_judge {stage : Stage} {line : String}
    (h : Session.judge line = .continued ∨ Session.judge line = .invalid ∧ stage = .awaitingStat) :
    Continues stage line := by
  unfold Continues
  cases hl : ofLine? line.toList with
  | none =>
    rcases h with h | ⟨_, hs⟩
    · rw [Session.judge_invalid_iff.mpr hl] at h
      cases h
    · exact hs
  | some reply =>
    rcases h with h | ⟨h, _⟩
    · exact (Session.judge_continued_iff hl).mp h
    · rw [Session.judge_invalid_iff, hl] at h
      cases h

theorem Standing.grant_cases {line : String} {code : UInt16} {stage : Stage} {later : Standing}
    (h : grant line code stage = some later) :
    later = .granted stage ∨ later = .ready ∧ stage ≠ .awaitingAuthTls ∧
      (stage = .awaitingPwd → ∃ path, Reply.ofLine line.toList >>= Reply.quotedPath = .ok path) := by
  cases stage with
  | awaitingUser =>
    simp only [grant] at h
    split at h
    next => cases h; exact Or.inr ⟨rfl, (by simp), (by simp)⟩
    next => cases h; exact Or.inl rfl
  | awaitingPass | awaitingStat =>
    cases h
    exact Or.inr ⟨rfl, (by simp), (by simp)⟩
  | awaitingPwd =>
    simp only [grant] at h
    split at h
    next path hp => cases h; exact Or.inr ⟨rfl, (by simp), fun _ => ⟨path, hp⟩⟩
    next => simp at h
  | _ =>
    cases h
    exact Or.inl rfl

theorem Link.Replied.quiet {deeds : List Deed} {d : Deed} {link later : Link}
    (h : link.Replied deeds) (ho : ∀ c, d ≠ .opened c) (hb : ∀ stream line, d ≠ .began stream line)
    (hh : ∀ stage bytes line, d ≠ .heard stage bytes line) (stream : later.stream = link.stream)
    (standing : later.standing = link.standing) : later.Replied (deeds ++ [d]) := by
  unfold Replied at h ⊢
  rw [standing, stream, Deed.latest_append deeds ho]
  cases hs : link.standing with
  | due stage =>
    rw [hs] at h
    exact Deed.Pending.append h hb fun at' bytes line hd => absurd hd (hh at' bytes line)
  | granted stage =>
    rw [hs] at h
    obtain ⟨line, since, answered⟩ := h
    exact ⟨line, _, answered.append hb fun at' bytes line hd => absurd hd (hh at' bytes line)⟩
  | encrypted | ready =>
    rw [hs] at h
    obtain ⟨stage, line, since, answered, cleared⟩ := h
    exact ⟨stage, line, _,
      answered.append hb fun at' bytes line hd => absurd hd (hh at' bytes line), cleared.append d⟩

/-- A line goes on with the reply that is due, or it ends it. -/
theorem Link.Replied.heard {deeds : List Deed} {link : Link} {line : String} {bytes rest : List UInt8}
    {standing : Standing} (h : link.Replied deeds) (listens : link.standing.listens = true)
    (hh : link.standing.hear line = some standing) :
    ({ link with unread := rest, standing } : Link).Replied
      (deeds ++ [.heard link.standing.stage bytes line]) := by
  unfold Replied at h ⊢
  have hlatest : Deed.latest (deeds ++ [.heard link.standing.stage bytes line]) =
      Deed.latest deeds ++ [.heard link.standing.stage bytes line] := Deed.latest_append deeds nofun
  rw [hlatest]
  generalize link.standing = before at h hh listens
  cases before with
  | granted _ | encrypted => simp [Standing.listens] at listens
  | ready =>
    cases hh
    obtain ⟨stage, text, since, answered, cleared⟩ := h
    refine ⟨stage, text, _, answered.append nofun ?_, cleared.append _⟩
    rintro at' bytes' line' ⟨⟩
    rfl
  | due stage =>
    have continues : Reply.Continues stage line → Deed.Pending stage
        (Deed.latest deeds ++ [.heard (Standing.due stage).stage bytes line]) := by
      intro hc
      refine Deed.Pending.append h nofun ?_
      rintro at' bytes' line' ⟨⟩
      exact ⟨rfl, hc⟩
    simp only [Standing.hear] at hh
    split at hh
    next invalid =>
      split at hh
      next hs =>
        cases hh
        exact continues (Reply.continues_of_judge (Or.inr ⟨invalid, hs⟩))
      next => simp at hh
    next continued =>
      cases hh
      exact continues (Reply.continues_of_judge (Or.inl continued))
    next => simp at hh
    -- The reply is at its end: the dialogue is granted the next command, or ready for any.
    next code accepted =>
      obtain ⟨reply, hreply, last, favourable, _⟩ := Session.reply_of_accepted accepted
      have answered : Deed.Answered
          (Deed.latest deeds ++ [.heard (Standing.due stage).stage bytes line]) stage line [] :=
        ⟨⟨_, bytes, rfl, h⟩, ⟨reply, hreply, last, favourable⟩, by simp [Deed.Quiet]⟩
      rcases Standing.grant_cases hh with rfl | ⟨rfl, hs, hpath⟩
      · exact ⟨line, [], answered⟩
      · exact ⟨stage, line, [], answered, fun he => absurd he hs, hpath⟩

theorem Standing.hear_spoilt {standing : Standing} {line : String}
    (awaiting : standing.stage.isAwaiting = true) (listens : standing.listens = true)
    (spoils : Reply.Spoils standing.stage line) : standing.hear line = none := by
  cases standing with
  | granted _ | encrypted => simp [Standing.listens] at listens
  | ready => simp [Standing.stage, Stage.isAwaiting] at awaiting
  | due stage =>
    have hs : (Standing.due stage).stage = stage := rfl
    rw [hs] at spoils
    unfold Reply.Spoils at spoils
    simp only [Standing.hear]
    cases hl : Reply.ofLine? line.toList with
    | none =>
      rw [hl] at spoils
      rw [Session.judge_invalid_iff.mpr hl]
      exact if_neg spoils
    | some reply =>
      rw [hl] at spoils
      obtain ⟨message, hm⟩ := Session.judge_refused hl spoils.1 spoils.2
      rw [hm]

namespace Wire

variable {p : Profile}

theorem Step.replied {deeds : List Deed} {w : Wire} {d : Deed} {later : Link}
    (h : Step p w d (.live later)) (replied : ∀ link, w = .live link → link.Replied deeds) :
    later.Replied (deeds ++ [d]) := by
  generalize hw : Wire.live later = w' at h
  cases h with
  | opened w c =>
    cases hw
    have hempty : Deed.latest (deeds ++ [.opened c]) = [] := Deed.latest_append_opened deeds c
    unfold Link.Replied
    rw [hempty]
    exact ⟨[], [], rfl, Or.inl ⟨rfl, rfl⟩, by simp [Deed.Quiet]⟩
  | @began link command stage permits _ =>
    cases hw
    have hlatest : Deed.latest (deeds ++ [.began link.stream command.line]) =
        Deed.latest deeds ++ [.began link.stream command.line] := Deed.latest_append deeds (by simp)
    unfold Link.Replied
    rw [hlatest]
    exact ⟨_, [], (List.append_nil _).symm,
      Or.inr ⟨_, link.stream, command, rfl, permits.stage_eq⟩, by simp [Deed.Quiet]⟩
  | @wrote link bytes rest _ =>
    cases hw
    exact (replied link rfl).quiet (by simp) (by simp) (by simp) rfl rfl
  | @received link bytes _ _ =>
    cases hw
    exact (replied link rfl).quiet (by simp) (by simp) (by simp) rfl rfl
  | @heard link line rest listens _ _ =>
    obtain ⟨standing, hh, rfl⟩ := Link.of_move_live hw.symm
    exact (replied link rfl).heard listens hh
  | @secured link standing _ =>
    cases hw
    have hlink := replied link rfl
    have hlatest : Deed.latest (deeds ++ [.secured link.stream.connection]) =
        Deed.latest deeds ++ [.secured link.stream.connection] := Deed.latest_append deeds (by simp)
    unfold Link.Replied at hlink ⊢
    rw [standing] at hlink
    rw [hlatest]
    obtain ⟨line, since, answered⟩ := hlink
    exact ⟨_, line, _, answered.append (by simp) (by simp), fun _ => by simp, (by simp)⟩
  | unsecured _ _ => simp at hw

theorem Runs.replied {deeds : List Deed} {link : Link} (runs : Runs p deeds (.live link)) :
    link.Replied deeds := by
  generalize hw : Wire.live link = w at runs
  induction runs generalizing link with
  | start => simp at hw
  | next _ hs ih =>
    subst hw
    exact hs.replied fun link hl => ih hl.symm

/-- After a bad reply nothing at all happens on a connection. -/
theorem Runs.spoilt {before after : List Deed} {stage : Stage} {bytes : List UInt8} {line : String}
    {w : Wire} (runs : Runs p (before ++ .heard stage bytes line :: after) w)
    (awaiting : stage.isAwaiting = true) (spoils : Reply.Spoils stage line)
    (ho : ∀ c, .opened c ∉ after) : after = [] := by
  induction after using List.reverseRecOn generalizing w with
  | nil => rfl
  | append_singleton after d ih =>
    rw [← List.cons_append, ← List.append_assoc] at runs
    obtain ⟨u, hu, step⟩ := runs.of_append_singleton
    have hnil := ih hu fun c hm => ho c (List.mem_append_left _ hm)
    subst hnil
    obtain ⟨v, hv, last⟩ := hu.of_append_singleton
    cases last with
    | @heard link line rest listens _ _ =>
      rw [Standing.hear_spoilt awaiting listens spoils] at step
      cases step with
      | opened _ c => exact absurd (by simp) (ho c)

end Wire

end FtpControl
