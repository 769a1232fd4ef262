import FtpControl.Proofs.Ending
import FtpControl.Proofs.StatusDecision

namespace FtpControl

open Console (Watch)

def Request.yields : Request → Event.Kind
  | .changeDirectory _ => .directory
  | _ => .listing

theorem Request.Outcome.kind {request : Request} {event : Event} (h : request.Outcome event) :
    event.kind = request.yields ∨ event.kind = .error := by
  cases h with
  | moved | listed => exact Or.inl rfl
  | rejected | unreadable => exact Or.inr rfl

namespace Desk

variable {p : Profile} {first desk desk' : Desk} {journal : List Item} {item : Item} {event : Event}

/-- No error has been told behind the end of a login. -/
def Calm (events : List Event) : Prop :=
  ∀ before event after, events = before ++ event :: after → event.kind = .error → .idle ∉ before

/-- All that was begun has had its result, but for what is still under way. -/
def Post.Earned (begun : List Request) (kinds : List Event.Kind) : Post → Prop
  | .login => True
  | .free => (Event.Kind.idle :: begun.map Request.yields).Sublist kinds
  | .busy request => ∃ done, begun = done ++ [request] ∧
      (Event.Kind.idle :: done.map Request.yields).Sublist kinds

theorem Calm.of_append {events later : List Event} (h : Calm (events ++ later)) : Calm events :=
  fun before event after he => h before event (after ++ later) (by simp [he])

theorem Post.Earned.append {post : Post} {begun : List Request} {kinds : List Event.Kind}
    (h : post.Earned begun kinds) (kind : Event.Kind) : post.Earned begun (kinds ++ [kind]) := by
  have grown : kinds.Sublist (kinds ++ [kind]) := List.sublist_append_left _ _
  cases post with
  | login => trivial
  | free => exact List.Sublist.trans h grown
  | busy request =>
    obtain ⟨done, hdone, hkinds⟩ := h
    exact ⟨done, hdone, hkinds.trans grown⟩

theorem Runs.earned (runs : Runs p ⟨.login, []⟩ journal desk) (calm : Calm (told journal)) :
    desk.post.Earned (begun journal) ((told journal).map Event.kind) := by
  induction runs with
  | start => trivial
  | @next journal desk desk' item runs step ih =>
    rw [told_append] at calm
    have earned := ih calm.of_append
    cases step with
    | asked request =>
      obtain ⟨htold, hbegun, _⟩ := append_asked journal request
      rw [htold, hbegun]
      exact earned
    | log | fatal | connected | passedOver | complaint =>
      obtain ⟨htold, hbegun, _⟩ := append_told journal _
      rw [htold, hbegun, List.map_append]
      exact earned.append _
    | idle waiting =>
      obtain ⟨_, hnone, _⟩ := runs.balance.1 rfl
      obtain ⟨htold, hbegun, _⟩ := append_told journal .idle
      rw [htold, hbegun, hnone]
      simp [Post.Earned, Event.kind]
    | begun request waiting =>
      obtain ⟨htold, hbegun, _⟩ := append_begun journal request
      rw [htold, hbegun]
      exact ⟨begun journal, rfl, earned⟩
    | @outcome request event waiting houtcome =>
      obtain ⟨hidle, _⟩ := runs.balance.2 (by simp)
      obtain ⟨done, hdone, hkinds⟩ := earned
      obtain ⟨htold, hbegun, _⟩ := append_told journal event
      rcases houtcome.kind with hkind | herror
      · rw [htold, hbegun, hdone]
        simp only [Post.Earned, List.map_append, List.map_cons, List.map_nil, hkind]
        exact hkinds.append (List.Sublist.refl _)
      · -- A request that has come to an error is not followed by the next in calm.
        exact absurd hidle (calm _ _ _ rfl herror)

theorem Runs.at (runs : Runs p first journal desk) {before : List Event}
    (h : before ++ [event] <+: told journal) : ∃ early later desk desk',
      journal = early ++ .told event :: later ∧ told early = before ∧ Runs p first early desk ∧
        Step p desk (.told event) desk' := by
  induction runs with
  | start => simpa [told] using h.length_le
  | @next journal desk desk' item runs step ih =>
    have earlier : before ++ [event] <+: told journal → ∃ early later desk desk',
        journal ++ [item] = early ++ .told event :: later ∧ told early = before ∧
          Runs p first early desk ∧ Step p desk (.told event) desk' := by
      intro h
      obtain ⟨early, later, desk, desk', rfl, htold, hruns, hstep⟩ := ih h
      exact ⟨early, later ++ [item], desk, desk', by simp, htold, hruns, hstep⟩
    cases item with
    | asked request =>
      rw [(append_asked journal request).1] at h
      exact earlier h
    | begun request =>
      rw [(append_begun journal request).1] at h
      exact earlier h
    | told last =>
      rw [(append_told journal last).1] at h
      rcases List.prefix_concat_iff.mp h with heq | h
      · obtain ⟨rfl, hlast⟩ := List.append_inj' heq rfl
        cases hlast
        exact ⟨journal, [], desk, desk', rfl, rfl, runs, step⟩
      · exact earlier h

theorem Step.of_result (step : Step p desk (.told event) desk')
    (h : event.kind = .directory ∨ event.kind = .listing) :
    ∃ request waiting, desk = ⟨.busy request, waiting⟩ ∧ event.kind = request.yields := by
  generalize hi : Item.told event = item at step
  cases step with
  | asked | begun => cases hi
  | log | fatal | connected | passedOver | idle | complaint =>
    cases hi
    simp [Event.kind, Desk.complaint] at h
  | @outcome request event waiting houtcome =>
    cases hi
    refine ⟨request, waiting, rfl, houtcome.kind.resolve_right fun herror => ?_⟩
    simp [herror] at h

theorem Step.of_passedOver {message : String}
    (step : Step p desk (.told (.error ("Connection error: " ++ message))) desk') : desk.post = .login := by
  generalize hi : Item.told (.error ("Connection error: " ++ message)) = item at step
  cases step with
  | passedOver => rfl
  | outcome waiting houtcome =>
    cases hi
    exact absurd houtcome (Request.not_outcome_passedOver _ message)
  | complaint =>
    have hletters := congrArg String.toList (Event.error.inj (Item.told.inj hi))
    simp [String.toList_append] at hletters
  | _ => cases hi

/-- The request whose result ends the program is the last that the profile asks for. -/
theorem last_of_success {done waiting : List Request} {request : Request} {w : Watch}
    (ha : p.automatic = done ++ request :: waiting) (hw : w.listing = p.listAfterLogin)
    (hk : event.kind = request.yields) (hs : w.verdict event = some .success) : waiting = [] := by
  have single : ∀ (only : Request) (done : List Request), [only] = done ++ request :: waiting →
      waiting = [] := by
    intro only done h
    have hlength := congrArg List.length h
    simp only [List.length_nil, List.length_append, List.length_cons] at hlength
    exact List.eq_nil_of_length_eq_zero (by omega)
  unfold Profile.automatic at ha
  cases hlist : p.listAfterLogin with
  | false =>
    cases hdirectory : p.initialDirectory with
    | none => simp [hlist, hdirectory] at ha
    | some path => exact single _ done (by simpa [hlist, hdirectory] using ha)
  | true =>
    cases hdirectory : p.initialDirectory with
    | none => exact single _ done (by simpa [hlist, hdirectory] using ha)
    | some path =>
      cases done with
      | nil =>
        -- The change of directory does not end a program that waits for the listing.
        obtain ⟨rfl, _⟩ : request = .changeDirectory path ∧ waiting = [.listDirectory] := by
          simpa [hlist, hdirectory, eq_comm] using ha
        cases event <;> simp [Event.kind, Request.yields] at hk
        simp [Watch.verdict, hw, hlist] at hs
      | cons first done =>
        simp only [hlist, hdirectory, Option.toList_some, List.map_cons, List.map_nil, List.cons_append,
          List.nil_append, ↓reduceIte, List.cons.injEq] at ha
        exact single _ done ha.2

theorem milestones_automatic (p : Profile) :
    (Watch.ofProfile p).milestones = .idle :: p.automatic.map Request.yields := by
  unfold Watch.milestones Watch.ofProfile Profile.automatic
  cases p.initialDirectory <;> cases p.listAfterLogin <;> rfl

theorem calm_of_undecided {w : Watch} {events : List Event} (fresh : w.loggedIn = false)
    (hs : w.status events = none) : Calm events := by
  rintro before event after rfl herror hidle
  exact Watch.spoils_decides fresh (Or.inr ⟨herror, hidle⟩) hs

/-- Where nothing else is asked for, success is told of the last milestone. -/
theorem Runs.honest (runs : Runs p ⟨.login, []⟩ journal desk) (unasked : asked journal = []) :
    (Watch.ofProfile p).Honest (told journal) := by
  intro before event hahead hnone hverdict
  obtain ⟨early, later, now, next, rfl, rfl, hruns, step⟩ := runs.at hahead
  have hasked : asked early = [] := by
    simp only [asked, List.filterMap_append, List.append_eq_nil_iff] at unasked
    exact unasked.1
  rw [List.map_append, milestones_automatic]
  rcases Watch.success_cases hverdict with hresult | ⟨rfl, hlisting, hdirectory⟩
  · obtain ⟨request, waiting, rfl, hkind⟩ := step.of_result hresult
    obtain ⟨done, hdone, hkinds⟩ := hruns.earned (calm_of_undecided rfl hnone)
    have hautomatic : p.automatic = done ++ request :: waiting := by
      have hbalance := (hruns.balance.2 (by simp)).2
      rw [hasked, List.append_nil, hdone, List.append_assoc] at hbalance
      exact hbalance.symm
    have hw : ((Watch.ofProfile p).behind (told early)).listing = p.listAfterLogin := by
      rw [Watch.behind_eq]
      rfl
    obtain rfl := last_of_success hautomatic hw hkind hverdict
    rw [hautomatic, List.map_append, ← List.cons_append]
    exact hkinds.append (by simp [hkind])
  · -- The login alone is asked for.
    rw [Watch.behind_eq] at hlisting hdirectory
    have hnothing : p.automatic = [] := by
      have hlist : p.listAfterLogin = false := hlisting
      have hpath : p.initialDirectory = none := by simpa [Watch.ofProfile] using hdirectory
      simp [Profile.automatic, hlist, hpath]
    simp [hnothing, Event.kind]

end Desk

namespace Runner

def Input.owned : Input → Bool
  | .request _ | .close => true
  | .proceed | .answer _ => false

/-- Until a program has its status, it asks for the connection, once, and for nothing else. -/
def Patient (w : Watch) (moves : List Move) : Prop :=
  ∀ before m after, moves = before ++ m :: after → w.status (told before) = none →
    m.input.owned = true →
    m.input = .request .connect ∧ ∀ earlier ∈ before, earlier.input.owned = false

variable {p : Profile} {w : Wire} {r r' : Runner} {moves : List Move} {today : Date} {input : Input}

/-- How far a program has come that asks for a connection and waits. -/
inductive Course (p : Profile) (moves : List Move) (r : Runner) : Prop
  | waiting : r.Ended → told moves = [] → (∀ m ∈ moves, m.input.owned = false) → Course p moves r
  | underway {journal : List Desk.Item} {post : Desk.Post} :
      Desk.Runs p ⟨.login, []⟩ journal ⟨post, r.session.deferred⟩ → Desk.asked journal = [] →
      Desk.told journal = told moves → post.Fits r.session.connecting r.session.stage →
      (∃ m ∈ moves, m.input.owned = true) → Course p moves r
  | decided {journal : List Desk.Item} {desk : Desk} : Desk.Runs p ⟨.login, []⟩ journal desk →
      Desk.asked journal = [] → Desk.told journal <+: told moves →
      (Watch.ofProfile p).status (Desk.told journal) ≠ none → Course p moves r

theorem Patient.of_append {watch : Watch} {later : List Move} (h : Patient watch (moves ++ later)) :
    Patient watch moves :=
  fun before m after he => h before m (after ++ later) (by simp [he])

theorem ended_start (p : Profile) (hasRoots : Bool) : (start p hasRoots).Ended :=
  ⟨⟨rfl, rfl, rfl, rfl, rfl, rfl, rfl, rfl⟩, Or.inl rfl⟩

theorem told_journal (m : Move) : Desk.told m.journal = m.told := by
  simp [Desk.told, Move.journal, List.filterMap_append, List.filterMap_map]

theorem asked_journal (m : Move) : Desk.asked m.journal = m.asked := by
  simp [Desk.asked, Move.journal, List.filterMap_append, List.filterMap_map]

theorem asked_of_network {m : Move} (h : m.input.owned = false) : m.asked = [] := by
  unfold Move.asked
  split
  next request he => simp [he, Input.owned] at h
  next => rfl

theorem ends_of_network {m : Move} (h : m.input.owned = false) (calm : ∀ text, .fatal text ∉ m.told) :
    m.ends = false := by
  unfold Move.ends
  refine Bool.or_eq_false_iff.mpr ⟨?_, List.any_eq_false.mpr fun event hm => ?_⟩
  · cases hi : m.input <;> simp [hi, Input.owned] at h ⊢
  · cases event with
    | fatal text => exact absurd hm (calm text)
    | _ => simp

theorem Course.undecided (course : Course p moves r)
    (hs : (Watch.ofProfile p).status (told moves) = none) :
    r.Ended ∧ told moves = [] ∧ (∀ m ∈ moves, m.input.owned = false) ∨
      (∃ m ∈ moves, m.input.owned = true) ∧ ∃ journal post,
        Desk.Runs p ⟨.login, []⟩ journal ⟨post, r.session.deferred⟩ ∧ Desk.asked journal = [] ∧
          Desk.told journal = told moves ∧ post.Fits r.session.connecting r.session.stage := by
  cases course with
  | waiting ended silent hnone => exact Or.inl ⟨ended, silent, hnone⟩
  | underway runs unasked htold fits hsome => exact Or.inr ⟨hsome, _, _, runs, unasked, htold, fits⟩
  | decided _ _ hahead hdecided => exact absurd (Watch.undecided_before hahead hs) hdecided

theorem Course.of_decided (course : Course p moves r)
    (hs : (Watch.ofProfile p).status (told moves) ≠ none) (m : Move) : Course p (moves ++ [m]) r' := by
  have grown : told moves <+: told (moves ++ [m]) := by
    rw [told_append]
    exact List.prefix_append _ _
  cases course with
  | waiting _ silent _ =>
    rw [silent] at hs
    exact absurd rfl hs
  | underway runs unasked htold _ _ =>
    exact .decided runs unasked (by rw [htold]; exact grown) (by rw [htold]; exact hs)
  | decided runs unasked hahead hdecided =>
    exact .decided runs unasked (hahead.trans grown) hdecided

theorem Course.of_waiting (ended : r.Ended) (silent : told moves = [])
    (hnone : ∀ m ∈ moves, m.input.owned = false) (hs : r.step? today input = some r')
    (owner : input.owned = true → input = .request .connect) :
    Course p (moves ++ [⟨r, input, r'⟩]) r' := by
  cases howned : input.owned with
  | true =>
    obtain rfl := owner howned
    obtain rfl := step_interrupting rfl hs
    have hmove : Move.told ⟨r, .request .connect, { session := r.session.handle .connect }⟩ =
        [.log "Connecting..."] := told_eq rfl
    have hopening : Desk.Runs p ⟨.login, []⟩ [.told (.log "Connecting...")]
        ⟨.login, r.session.deferred⟩ := by
      rw [ended.blank.deferred]
      exact Desk.Runs.start.next (.log _ _)
    refine .underway hopening rfl ?_ ⟨rfl, rfl⟩
      ⟨_, List.mem_append_right _ (List.mem_singleton_self _), howned⟩
    rw [told_append, silent, hmove]
    rfl
  | false =>
    have hc : input ≠ .request .connect := by
      rintro rfl
      simp [Input.owned] at howned
    obtain ⟨hended, _, hrefused⟩ := ended.step hs hc
    rw [asked_of_network howned] at hrefused
    refine .waiting hended (by rw [told_append, silent, hrefused]; rfl) fun m hm => ?_
    rcases List.mem_append.mp hm with hm | hm
    · exact hnone m hm
    · rw [List.mem_singleton.mp hm]
      exact howned

/-- What the network brings goes on with the row, and leaves the session up unless it is decisive. -/
theorem Course.of_underway {hasRoots : Bool} {journal : List Desk.Item} {post : Desk.Post}
    (run : Run (start p hasRoots) moves r)
    (runs : Desk.Runs p ⟨.login, []⟩ journal ⟨post, r.session.deferred⟩)
    (unasked : Desk.asked journal = []) (htold : Desk.told journal = told moves)
    (fits : post.Fits r.session.connecting r.session.stage)
    (hsome : ∃ m ∈ moves, m.input.owned = true) (hs : r.step? today input = some r')
    (howned : input.owned = false) : Course p (moves ++ [⟨r, input, r'⟩]) r' := by
  obtain ⟨w, wires, matched⟩ := run_matches run
  obtain ⟨⟨later, waiting⟩, hruns, hstands⟩ := step_journal matched wires.sound fits hs
  have hall := runs.append hruns
  have hasked : Desk.asked (journal ++ Move.journal ⟨r, input, r'⟩) = [] := by
    have hmove := asked_journal ⟨r, input, r'⟩
    rw [asked_of_network howned] at hmove
    rw [Desk.asked, List.filterMap_append]
    exact List.append_eq_nil_iff.mpr ⟨unasked, hmove⟩
  have hsame : Desk.told (journal ++ Move.journal ⟨r, input, r'⟩) = told (moves ++ [⟨r, input, r'⟩]) := by
    rw [Desk.told_append, told_journal, htold, told_append]
  by_cases hlater : (Watch.ofProfile p).status (told (moves ++ [⟨r, input, r'⟩])) = none
  · have calm : ∀ text, .fatal text ∉ Move.told ⟨r, input, r'⟩ := by
      intro text hm
      rw [told_append] at hlater
      obtain ⟨before, rest, hsplit⟩ := List.append_of_mem hm
      rw [hsplit, ← List.append_assoc] at hlater
      exact Watch.spoils_decides rfl (Or.inl rfl) hlater
    obtain ⟨hfits, rfl⟩ := hstands (ends_of_network howned calm)
    obtain ⟨m, hm, hother⟩ := hsome
    exact .underway hall hasked hsame hfits ⟨m, List.mem_append_left _ hm, hother⟩
  · exact .decided hall hasked (by rw [hsame]) (by rw [hsame]; exact hlater)

theorem Course.next {hasRoots : Bool} (run : Run (start p hasRoots) moves r)
    (hs : r.step? today input = some r')
    (patient : Patient (Watch.ofProfile p) (moves ++ [⟨r, input, r'⟩])) (course : Course p moves r) :
    Course p (moves ++ [⟨r, input, r'⟩]) r' := by
  by_cases hdecided : (Watch.ofProfile p).status (told moves) ≠ none
  · exact course.of_decided hdecided _
  have undecided := not_not.mp hdecided
  have owner := patient moves ⟨r, input, r'⟩ [] rfl undecided
  rcases course.undecided undecided with
    ⟨ended, silent, hnone⟩ | ⟨hsome, journal, post, runs, unasked, htold, fits⟩
  · exact .of_waiting ended silent hnone hs fun howned => (owner howned).1
  · -- The connection has been asked for, and it is asked for once.
    have howned : input.owned = false := by
      obtain ⟨m, hm, hother⟩ := hsome
      refine Bool.eq_false_iff.mpr fun howned => ?_
      rw [(owner howned).2 m hm] at hother
      cases hother
    exact .of_underway run runs unasked htold fits hsome hs howned

theorem course_of_run {hasRoots : Bool} (run : Run (start p hasRoots) moves r)
    (patient : Patient (Watch.ofProfile p) moves) : Course p moves r := by
  induction run with
  | start => exact .waiting (ended_start p hasRoots) rfl (by simp)
  | next run hs ih => exact Course.next run hs patient (ih patient.of_append)

/-- What a program sees is told in a row of its own, in which nothing is asked for. -/
theorem Course.foretold (course : Course p moves r) :
    ∃ journal desk, Desk.Runs p ⟨.login, []⟩ journal desk ∧ Desk.asked journal = [] ∧
      ∀ before event, before ++ [event] <+: told moves →
        (Watch.ofProfile p).status before = none → before ++ [event] <+: Desk.told journal := by
  cases course with
  | waiting _ silent _ =>
    refine ⟨[], _, .start, rfl, fun before event hahead _ => ?_⟩
    rw [silent] at hahead
    exact hahead
  | underway runs unasked htold _ _ =>
    exact ⟨_, _, runs, unasked, fun before event hahead _ => by rw [htold]; exact hahead⟩
  | decided runs unasked hshort hdecided =>
    refine ⟨_, _, runs, unasked, fun before event hahead hnone => ?_⟩
    rcases List.prefix_or_prefix_of_prefix hahead hshort with h | h
    · exact h
    · rcases List.prefix_concat_iff.mp h with heq | h
      · rw [heq]
      · exact absurd (Watch.undecided_before h hnone) hdecided

theorem Course.passedOver (course : Course p moves r) {before : List Event} {message : String}
    (h : before ++ [.error ("Connection error: " ++ message)] <+: told moves) :
    (Watch.ofProfile p).status (before ++ [.error ("Connection error: " ++ message)]) =
      (Watch.ofProfile p).status before := by
  rw [Watch.status_concat]
  cases hs : (Watch.ofProfile p).status before with
  | some status => rfl
  | none =>
    obtain ⟨journal, desk, runs, _, seen⟩ := course.foretold
    obtain ⟨early, later, now, next, rfl, rfl, hruns, step⟩ := runs.at (seen before _ h hs)
    have hidle := (hruns.balance.1 step.of_passedOver).1
    rw [Watch.behind_eq]
    simp [Watch.verdict, Watch.ofProfile, hidle]

theorem Course.honest (course : Course p moves r) : (Watch.ofProfile p).Honest (told moves) := by
  obtain ⟨journal, desk, runs, unasked, seen⟩ := course.foretold
  exact fun before event hahead hnone =>
    runs.honest unasked before event (seen before event hahead hnone) hnone

end Runner

theorem Profile.fault_of_ofFile {path : String} {content : Except FileFault (List Char)} {p : Profile}
    (h : ofFile path content = .ok p) : p.fault? = none := by
  cases content with
  | error fault => cases h
  | ok text =>
    have htext : ofText text = .ok p := h
    unfold ofText at htext
    cases hread : (Json.takeAll (shape.take {}) text).mapError unreadable with
    | error failure =>
      rw [hread] at htext
      cases htext
    | ok read =>
      have hvalid : read.validated = .ok p := by rwa [hread] at htext
      unfold validated at hvalid
      split at hvalid
      next => cases hvalid
      next hfault =>
        cases hvalid
        exact hfault

theorem Console.Options.adapt_validated (o : Options) {saved : Profile} (h : saved.fault? = none) :
    (o.adapt saved).validated = .ok (o.adapt saved) := by
  have hsame : (o.adapt saved).fault? = saved.fault? := rfl
  simp [Profile.validated, hsame, h]

theorem Console.Options.milestones_adapt (o : Options) (saved : Profile) :
    (Watch.ofProfile (o.adapt saved)).milestones = o.milestones saved := by
  unfold Watch.milestones Options.milestones Watch.ofProfile adapt
  cases o.directory <;> cases saved.initialDirectory <;> cases saved.listAfterLogin <;>
    cases o.noList <;> rfl

namespace Runner

/-- A connection that loads can be tried whatever the options are. Then the program succeeds just when
the login, the change of directory if one was asked for and the listing if one was asked for have come in
this order, with no failure before the last of them, and it fails just when a failure came first; an
address that fails never decides it. -/
theorem status_is_earned {o : Console.Options} {saved : Profile} {hasRoots : Bool} {moves : List Move}
    {r : Runner} (run : Run (start (o.adapt saved) hasRoots) moves r)
    (patient : Patient (Watch.ofProfile (o.adapt saved)) moves) :
    (∀ content, Profile.ofFile o.config content = .ok saved →
      (o.adapt saved).validated = .ok (o.adapt saved)) ∧
    ((Watch.ofProfile (o.adapt saved)).status (told moves) = some .success ↔
      Console.Accomplished (o.milestones saved) (told moves)) ∧
    ((Watch.ofProfile (o.adapt saved)).status (told moves) = some .failure ↔
      Console.Failed (o.milestones saved) (told moves)) ∧
    ∀ before message,
      before ++ [.error ("Connection error: " ++ message)] <+: told moves →
        (Watch.ofProfile (o.adapt saved)).status (before ++ [.error ("Connection error: " ++ message)]) =
          (Watch.ofProfile (o.adapt saved)).status before := by
  have course := course_of_run run patient
  rw [← o.milestones_adapt saved]
  exact ⟨fun content loads => o.adapt_validated (Profile.fault_of_ofFile loads),
    Watch.success_iff rfl course.honest, Watch.failure_iff rfl course.honest,
    fun before message => course.passedOver⟩

theorem patient_of_inputs {watch : Watch} {moves : List Move} {first rest : List Input}
    (h : moves.map Move.input = first ++ .request .connect :: rest)
    (hfirst : ∀ input ∈ first, input.owned = false) (hrest : ∀ input ∈ rest, input.owned = false) :
    Patient watch moves := by
  rintro before m after rfl _ howned
  rw [List.map_append, List.map_cons] at h
  have early : before.map Move.input = first → ∀ earlier ∈ before, earlier.input.owned = false := by
    rintro rfl earlier he
    exact hfirst _ (List.mem_map_of_mem he)
  rcases List.append_eq_append_iff.mp h with ⟨more, hmore, hm⟩ | ⟨more, hmore, hm⟩
  · cases more with
    | nil => exact ⟨(List.cons.inj hm).1, early (by simpa using hmore.symm)⟩
    | cons input more =>
      obtain ⟨rfl, _⟩ := List.cons.inj hm
      rw [hfirst _ (by simp [hmore])] at howned
      cases howned
  · cases more with
    | nil => exact ⟨(List.cons.inj hm).1.symm, early (by simpa using hmore)⟩
    | cons input more =>
      obtain ⟨_, rfl⟩ := List.cons.inj hm
      rw [hrest _ (by simp)] at howned
      cases howned

/-- The first address fails; then the login, the directory given on the command line and the listing
come one after the other. -/
theorem success_after_failed_address :
    ∃ (o : Console.Options) (saved : Profile) (moves : List Move) (r : Runner),
      Run (start (o.adapt saved) true) moves r ∧
      Patient (Watch.ofProfile (o.adapt saved)) moves ∧ o.directory = some "/pub" ∧
      o.milestones saved = [.idle, .directory, .listing] ∧
      .error "Connection error: 10.0.0.1:21: refused" ∈ told moves ∧
      (Watch.ofProfile (o.adapt saved)).status (told moves) = some .success ∧
      Console.Accomplished [.idle, .directory, .listing] (told moves) := by
  let o : Console.Options := { config := "site.json", directory := some "/pub" }
  let saved : Profile := { host := "localhost", username := "user", password := "secret", authTls := false }
  let text (line : String) (h : line.toList ≠ [] ∧ '\r' ∉ line.toList ∧ '\n' ∉ line.toList) :
    Argument := ⟨line, h.1, h.2⟩
  let rest : List Input :=
    [.proceed, .proceed,
      .answer (.found [⟨.v4 ⟨#[10, 0, 0, 1], rfl⟩, 21⟩, ⟨.v4 ⟨#[10, 0, 0, 2], rfl⟩, 21⟩]), .proceed,
      .proceed, .answer (.refused "refused"), .proceed, .proceed, .answer (.accepted 0), .proceed,
      .proceed, .told "220 Ready\r\n"] ++
    Input.exchanged (.user (text "user" (by decide))) "331 Password\r\n" ++
    Input.exchanged (.pass (text "secret" (by decide))) "230 Welcome\r\n" ++ [.proceed] ++
    Input.exchanged (.cwd (text "/pub" (by decide))) "250 Ok\r\n" ++
    Input.exchanged .pwd "257 \"/pub\"\r\n" ++ [.proceed] ++
    Input.exchanged .statList "211 End\r\n"
  let watch := Watch.ofProfile (o.adapt saved)
  have h : (rehearse (o.adapt saved) ([.proceed] ++ .request .connect :: rest)).map (fun x =>
      (decide (x.1.map Move.input = [.proceed] ++ .request .connect :: rest) && rest.all (!·.owned),
        watch.status (told x.1),
        (told x.1).contains (.error "Connection error: 10.0.0.1:21: refused"))) =
      some (true, some .success, true) := by decide +kernel
  obtain ⟨⟨moves, r⟩, hplay, h⟩ := Option.map_eq_some_iff.mp h
  simp only [Prod.mk.injEq, Bool.and_eq_true, decide_eq_true_eq] at h
  obtain ⟨⟨hinputs, hrest⟩, hstatus, hpassed⟩ := h
  have run := run_of_play hplay
  have patient : Patient watch moves :=
    patient_of_inputs hinputs (by simp [Input.owned]) (by simpa using hrest)
  exact ⟨o, saved, moves, r, run, patient, rfl, by decide, by simpa using hpassed, hstatus,
    (status_is_earned run patient).2.1.mp hstatus⟩

end Runner

end FtpControl
