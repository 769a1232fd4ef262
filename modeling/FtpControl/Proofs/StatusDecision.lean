import FtpControl.Console
import Mathlib.Data.List.Induction
import Mathlib.Data.List.Infix

namespace FtpControl

def Event.kind : Event → Event.Kind
  | .log _ => .log
  | .connected => .connected
  | .idle => .idle
  | .error _ => .error
  | .fatal _ => .fatal
  | .directory _ => .directory
  | .listing _ => .listing

/-- The event is a failure: the session's end, or an error behind the login. -/
def Event.Spoils (before : List Event) (event : Event) : Prop :=
  event.kind = .fatal ∨ event.kind = .error ∧ .idle ∈ before

namespace Console

/-- The kinds of events that the program is run for, in their order. -/
def Options.milestones (o : Options) (saved : Profile) : List Event.Kind :=
  .idle :: ((if o.directory.isSome ∨ saved.initialDirectory.isSome then [.directory] else []) ++
    if saved.listAfterLogin ∧ ¬o.noList then [.listing] else [])

/-- All the milestones have come, in their order and before any failure. -/
def Accomplished (milestones : List Event.Kind) (events : List Event) : Prop :=
  ∃ seen, seen <+: events ∧ milestones.Sublist (seen.map Event.kind) ∧
    ∀ before event after, seen = before ++ event :: after → ¬event.Spoils before

def Failed (milestones : List Event.Kind) (events : List Event) : Prop :=
  ∃ before event after, events = before ++ event :: after ∧ event.Spoils before ∧
    ¬Accomplished milestones before

namespace Watch

def status (w : Watch) (events : List Event) : Option Status :=
  (w.follow events).2

def behind (w : Watch) (events : List Event) : Watch :=
  events.foldl after w

def milestones (w : Watch) : List Event.Kind :=
  .idle :: ((if w.directory then [.directory] else []) ++ if w.listing then [.listing] else [])

variable {w : Watch} {events before rest : List Event} {event : Event} {status : Status}

theorem status_cons (w : Watch) (event : Event) (events : List Event) :
    w.status (event :: events) = (w.verdict event).or ((w.after event).status events) := by
  unfold Watch.status
  rw [follow]
  cases w.verdict event <;> rfl

theorem status_append (w : Watch) (events rest : List Event) :
    w.status (events ++ rest) = (w.status events).or ((w.behind events).status rest) := by
  induction events generalizing w with
  | nil => rfl
  | cons event events ih =>
    rw [List.cons_append, status_cons, status_cons, ih, Option.or_assoc]
    rfl

theorem status_concat (w : Watch) (events : List Event) (event : Event) :
    w.status (events ++ [event]) = (w.status events).or ((w.behind events).verdict event) := by
  rw [status_append, status_cons]
  cases (w.behind events).verdict event <;> rfl

theorem status_stays (h : events <+: rest) (hs : w.status events = some status) :
    w.status rest = some status := by
  obtain ⟨later, rfl⟩ := h
  rw [status_append, hs]
  rfl

theorem undecided_before (h : events <+: rest) (hs : w.status rest = none) :
    w.status events = none := by
  cases he : w.status events with
  | none => rfl
  | some status => rw [status_stays h he] at hs; cases hs

/-- The program ends with the first event that decides it. -/
theorem status_eq_some (hs : w.status events = some status) :
    ∃ before event rest, events = before ++ event :: rest ∧ w.status before = none ∧
      (w.behind before).verdict event = some status := by
  induction events using List.reverseRecOn with
  | nil => cases hs
  | append_singleton events event ih =>
    cases hbefore : w.status events with
    | none =>
      rw [status_concat, hbefore] at hs
      exact ⟨events, event, [], rfl, hbefore, hs⟩
    | some early =>
      have hsame := status_stays (List.prefix_append events [event]) hbefore
      obtain rfl : early = status := Option.some.inj (hsame.symm.trans hs)
      obtain ⟨before, decisive, rest, rfl, hnone, hverdict⟩ := ih hbefore
      exact ⟨before, decisive, rest ++ [event], by simp, hnone, hverdict⟩

theorem verdict_of_undecided (h : before ++ event :: rest = events) (hs : w.status events = none) :
    (w.behind before).verdict event = none := by
  have hconcat : w.status (before ++ [event]) = none :=
    undecided_before ⟨rest, by simpa using h⟩ hs
  rw [status_concat] at hconcat
  exact (Option.or_eq_none_iff.mp hconcat).2

theorem behind_eq (w : Watch) (events : List Event) :
    w.behind events = { w with loggedIn := w.loggedIn || decide (.idle ∈ events) } := by
  induction events using List.reverseRecOn with
  | nil => simp [behind]
  | append_singleton events event ih =>
    have hstep : w.behind (events ++ [event]) = (w.behind events).after event := by
      simp [behind]
    rw [hstep, ih, after]
    by_cases he : event = .idle <;> simp [he, eq_comm]

section Fresh

variable (fresh : w.loggedIn = false)
include fresh

theorem verdict_eq_failure : (w.behind before).verdict event = some .failure ↔ event.Spoils before := by
  rw [behind_eq, fresh]
  cases event <;> simp [verdict, Event.Spoils, Event.kind]

theorem spoils_decides (h : event.Spoils before) : w.status (before ++ event :: rest) ≠ none := fun hs => by
  have hnone := verdict_of_undecided rfl hs
  rw [(verdict_eq_failure fresh).mpr h] at hnone
  cases hnone

end Fresh

theorem verdict_ne_usage : w.verdict event ≠ some .usage := by
  unfold verdict
  split
  all_goals try split
  all_goals nofun

/-- Only a result is a success, or the login where no result is waited for. -/
theorem success_cases (hs : w.verdict event = some .success) :
    (event.kind = .directory ∨ event.kind = .listing) ∨
      event = .idle ∧ w.listing = false ∧ w.directory = false := by
  cases event with
  | directory | listing => simp [Event.kind]
  | idle => exact Or.inr ⟨rfl, by simpa [verdict] using hs⟩
  | error => cases hin : w.loggedIn <;> simp [verdict, hin] at hs
  | _ => cases hs

theorem milestones_decide (h : w.milestones.Sublist (events.map Event.kind)) :
    w.status events ≠ none := by
  intro hs
  -- Each milestone has come without a verdict, which the last one cannot.
  have decides : ∀ kind ∈ w.milestones,
      ∃ event before, event.kind = kind ∧ (w.behind before).verdict event = none := by
    intro kind hkind
    obtain ⟨event, hm, he⟩ := List.mem_map.mp (h.subset hkind)
    obtain ⟨before, rest, hsplit⟩ := List.append_of_mem hm
    exact ⟨event, before, he, verdict_of_undecided hsplit.symm hs⟩
  obtain ⟨listing, directory, loggedIn⟩ := w
  cases listing with
  | true =>
    obtain ⟨event, before, he, hverdict⟩ := decides .listing (by simp [milestones])
    cases event <;> simp [Event.kind, verdict] at he hverdict
  | false =>
    cases directory with
    | true =>
      obtain ⟨event, before, he, hverdict⟩ := decides .directory (by simp [milestones])
      cases event <;> simp [Event.kind, verdict, behind_eq] at he hverdict
    | false =>
      obtain ⟨event, before, he, hverdict⟩ := decides .idle (by simp [milestones])
      cases event <;> simp [Event.kind, verdict, behind_eq] at he hverdict

/-- No success is told before all the milestones have come. -/
def Honest (w : Watch) (events : List Event) : Prop :=
  ∀ before event, before ++ [event] <+: events → w.status before = none →
    (w.behind before).verdict event = some .success →
    w.milestones.Sublist ((before ++ [event]).map Event.kind)

section Fresh

variable (fresh : w.loggedIn = false)
include fresh

theorem status_of_accomplished (h : Accomplished w.milestones events) : w.status events = some .success := by
  obtain ⟨seen, hahead, hmilestones, sound⟩ := h
  obtain ⟨status, hs⟩ := Option.ne_none_iff_exists'.mp (milestones_decide hmilestones)
  obtain ⟨before, event, rest, hsplit, _, hverdict⟩ := status_eq_some hs
  cases status with
  | success => exact status_stays hahead hs
  | failure => exact absurd ((verdict_eq_failure fresh).mp hverdict) (sound before event rest hsplit)
  | usage => exact absurd hverdict verdict_ne_usage

theorem accomplished_of_status (honest : w.Honest events) (hs : w.status events = some .success) :
    Accomplished w.milestones events := by
  obtain ⟨before, event, rest, rfl, hnone, hverdict⟩ := status_eq_some hs
  have hseen : before ++ [event] <+: before ++ event :: rest := ⟨rest, by simp⟩
  refine ⟨before ++ [event], hseen, honest before event hseen hnone hverdict, ?_⟩
  intro early other later hsplit spoils
  rcases List.eq_nil_or_concat later with rfl | ⟨between, last, rfl⟩
  · obtain ⟨rfl, hother⟩ := List.append_inj' hsplit rfl
    cases hother
    rw [(verdict_eq_failure fresh).mpr spoils] at hverdict
    cases hverdict
  · -- A failure further ahead would have decided first.
    rw [List.concat_eq_append, ← List.cons_append, ← List.append_assoc] at hsplit
    obtain ⟨rfl, _⟩ := List.append_inj' hsplit rfl
    exact spoils_decides fresh spoils hnone

theorem success_iff (honest : w.Honest events) :
    w.status events = some .success ↔ Accomplished w.milestones events :=
  ⟨accomplished_of_status fresh honest, status_of_accomplished fresh⟩

theorem failure_iff (honest : w.Honest events) :
    w.status events = some .failure ↔ Failed w.milestones events := by
  constructor
  · intro hs
    obtain ⟨before, event, rest, hsplit, hnone, hverdict⟩ := status_eq_some hs
    refine ⟨before, event, rest, hsplit, (verdict_eq_failure fresh).mp hverdict, fun done => ?_⟩
    rw [status_of_accomplished fresh done] at hnone
    cases hnone
  · rintro ⟨before, event, rest, rfl, spoils, missing⟩
    have hbefore : before <+: before ++ event :: rest := List.prefix_append _ _
    cases hs : w.status before with
    | none =>
      rw [List.append_cons, status_append, status_concat, hs, (verdict_eq_failure fresh).mpr spoils]
      rfl
    | some status =>
      have hsame := status_stays hbefore hs
      cases status with
      | failure => exact hsame
      | success =>
        -- A status told before the failure stands, but success is not told too early.
        have early : w.Honest before := fun first other h => honest first other (h.trans hbefore)
        exact absurd (accomplished_of_status fresh early hs) missing
      | usage =>
        obtain ⟨_, _, _, _, _, hverdict⟩ := status_eq_some hs
        exact absurd hverdict verdict_ne_usage

end Fresh

end Watch

end Console

end FtpControl
