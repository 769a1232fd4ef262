import FtpControl.Proofs.ListingReading
import FtpControl.Session
import Mathlib.Data.List.Induction

namespace FtpControl

def Profile.automatic (p : Profile) : List Request :=
  p.initialDirectory.toList.map Request.changeDirectory ++
    if p.listAfterLogin then [Request.listDirectory] else []

/-- What the owner is told at the end of a request: the result, or the reason why there is none. -/
inductive Request.Outcome : Request → Event → Prop
  | moved (path result : String) : Outcome (.changeDirectory path) (.directory result)
  | rejected {path : String} {failure : Failure} : Command.changeTo path = .error failure →
      Outcome (.changeDirectory path) (.error failure.message)
  | listed (entries : List Entry) : Outcome .listDirectory (.listing entries)
  | unreadable {today : Date} {isStrict : Bool} {lines : List String} {failure : Failure} :
      Listing.read today isStrict lines = .error failure →
      Outcome .listDirectory (.error failure.message)

namespace Desk

def complaint : Event :=
  .error "Invalid reply received."

def refusal : Event :=
  .error "Not logged in."

/-- What happens between a session and its owner. -/
inductive Item where
  /-- Navigation is asked for. -/
  | asked (request : Request)
  | begun (request : Request)
  | told (event : Event)
  deriving DecidableEq, Repr

def asked (journal : List Item) : List Request :=
  journal.filterMap fun item => match item with | .asked request => some request | _ => none

def begun (journal : List Item) : List Request :=
  journal.filterMap fun item => match item with | .begun request => some request | _ => none

def told (journal : List Item) : List Event :=
  journal.filterMap fun item => match item with | .told event => some event | _ => none

def follow (last : Option (Request × List Event)) : Item → Option (Request × List Event)
  | .begun request => some (request, [])
  | .asked _ | .told (.log _) | .told (.fatal _) => last
  | .told event => last.map fun (request, events) => (request, events ++ [event])

/-- The request begun last, and what has been told since, apart from the log and from the end of the
session. -/
def current (journal : List Item) : Option (Request × List Event) :=
  journal.foldl follow none

def Settled (request : Request) (events : List Event) : Prop :=
  ∃ outcome complaints, events = outcome :: complaints ∧ request.Outcome outcome ∧
    ∀ event ∈ complaints, event = complaint ∧ ¬request.Outcome event

/-- What the session is doing. -/
inductive Post where
  | login
  | free
  | busy (request : Request)
  deriving DecidableEq, Repr

end Desk

structure Desk where
  post : Desk.Post
  /-- The navigation that has been put off. -/
  waiting : List Request
  deriving DecidableEq, Repr

namespace Desk

/-- What can happen next. -/
inductive Step (p : Profile) : Desk → Item → Desk → Prop
  | asked {post : Post} {waiting : List Request} (request : Request) :
      Step p ⟨post, waiting⟩ (.asked request) ⟨post, waiting ++ [request]⟩
  | log (desk : Desk) (line : String) : Step p desk (.told (.log line)) desk
  | fatal (desk : Desk) (message : String) : Step p desk (.told (.fatal message)) desk
  | connected (waiting : List Request) : Step p ⟨.login, waiting⟩ (.told .connected) ⟨.login, waiting⟩
  | passedOver (waiting : List Request) (message : String) :
      Step p ⟨.login, waiting⟩ (.told (.error ("Connection error: " ++ message))) ⟨.login, waiting⟩
  | idle (waiting : List Request) :
      Step p ⟨.login, waiting⟩ (.told .idle) ⟨.free, p.automatic ++ waiting⟩
  | complaint (waiting : List Request) : Step p ⟨.free, waiting⟩ (.told complaint) ⟨.free, waiting⟩
  | begun (request : Request) (waiting : List Request) :
      Step p ⟨.free, request :: waiting⟩ (.begun request) ⟨.busy request, waiting⟩
  | outcome {request : Request} {event : Event} (waiting : List Request) : request.Outcome event →
      Step p ⟨.busy request, waiting⟩ (.told event) ⟨.free, waiting⟩

/-- The rows of items that can happen from a state on. -/
inductive Runs (p : Profile) (first : Desk) : List Item → Desk → Prop
  | start : Runs p first [] first
  | next {journal : List Item} {desk desk' : Desk} {item : Item} :
      Runs p first journal desk → Step p desk item desk' → Runs p first (journal ++ [item]) desk'

/-- Each request begun comes from the front of all that has been asked for, and is settled before the
next. Nothing is refused. -/
structure Orderly (p : Profile) (journal : List Item) : Prop where
  order : begun journal <+: p.automatic ++ asked journal
  turns : ∀ before request events, before <+: journal → current before = some (request, events) →
    events = [] ∨ Settled request events
  settled : ∀ before next request events, before ++ [.begun next] <+: journal →
    current before = some (request, events) → Settled request events
  quiet : ∀ before, before <+: journal → current before = none →
    ∀ event ∈ told before, ∀ request : Request, ¬request.Outcome event
  accepted : refusal ∉ told journal

theorem told_append (journal later : List Item) :
    told (journal ++ later) = told journal ++ told later := by
  simp [told]

theorem append_asked (journal : List Item) (request : Request) :
    told (journal ++ [.asked request]) = told journal ∧
      begun (journal ++ [.asked request]) = begun journal ∧
      asked (journal ++ [.asked request]) = asked journal ++ [request] := by
  simp [told, begun, asked]

theorem append_begun (journal : List Item) (request : Request) :
    told (journal ++ [.begun request]) = told journal ∧
      begun (journal ++ [.begun request]) = begun journal ++ [request] ∧
      asked (journal ++ [.begun request]) = asked journal := by
  simp [told, begun, asked]

theorem append_told (journal : List Item) (event : Event) :
    told (journal ++ [.told event]) = told journal ++ [event] ∧
      begun (journal ++ [.told event]) = begun journal ∧
      asked (journal ++ [.told event]) = asked journal := by
  simp [told, begun, asked]

theorem current_append (journal : List Item) (item : Item) :
    current (journal ++ [item]) = follow (current journal) item := by
  simp [current]

end Desk

theorem Listing.message_of_read {today : Date} {isStrict : Bool} {lines : List String}
    {failure : Failure} (h : read today isStrict lines = .error failure) :
    ∃ quoted, failure.message = "Could not parse directory list entry '" ++ quoted := by
  obtain ⟨entries, rejects, sifted⟩ := exists_sifted today lines
  cases isStrict with
  | false => cases h
  | true =>
    have hstrict := sifted.strict.symm.trans h
    cases rejects with
    | nil => cases hstrict
    | cons reject rejects =>
      obtain ⟨line, fault⟩ := reject
      refine ⟨line ++ "': " ++ fault.message, ?_⟩
      rw [← Except.error.inj hstrict]
      simp [Listing.failure, Failure.listing, String.append_assoc]

namespace Request

theorem Outcome.error_cases {request : Request} {message : String}
    (h : request.Outcome (.error message)) :
    message = "Empty path." ∨ message = "Line break in command argument." ∨
      ∃ quoted, message = "Could not parse directory list entry '" ++ quoted := by
  generalize he : Event.error message = event at h
  cases h with
  | moved | listed => simp at he
  | @rejected path failure hf =>
    cases he
    unfold Command.changeTo Argument.ofText at hf
    split at hf
    next =>
      cases hf
      exact Or.inl rfl
    next =>
      split at hf
      next => simp [Functor.map, Except.map] at hf
      next =>
        cases hf
        exact Or.inr (Or.inl rfl)
  | unreadable hf =>
    cases he
    exact Or.inr (Or.inr (Listing.message_of_read hf))

theorem Outcome.letters {request : Request} {message : String}
    (h : request.Outcome (.error message)) : message.toList.take 3 ∈ ["Emp".toList, "Lin".toList, "Cou".toList] := by
  rcases h.error_cases with rfl | rfl | ⟨quoted, rfl⟩
  · decide
  · decide
  · simp [String.toList_append]

theorem not_outcome_complaint (request : Request) : ¬request.Outcome Desk.complaint :=
  fun h => absurd h.letters (by decide)

theorem not_outcome_refusal (request : Request) : ¬request.Outcome Desk.refusal :=
  fun h => absurd h.letters (by decide)

theorem not_outcome_passedOver (request : Request) (message : String) :
    ¬request.Outcome (.error ("Connection error: " ++ message)) := by
  intro h
  have hletters := h.letters
  simp [String.toList_append] at hletters

end Request

namespace Desk

/-- What has become of the request begun last, as the session goes on. -/
def Post.Current : Post → Option (Request × List Event) → Prop
  | .login, last => last = none
  | .free, last => ∀ request events, last = some (request, events) → Settled request events
  | .busy request, last => last = some (request, [])

variable {p : Profile} {first desk desk' : Desk} {journal later : List Item} {item : Item}

theorem Runs.of_append (runs : Runs p first (journal ++ later) desk') :
    ∃ desk, Runs p first journal desk := by
  induction later using List.reverseRecOn generalizing desk' with
  | nil => exact ⟨desk', by simpa using runs⟩
  | append_singleton later item ih =>
    rw [← List.append_assoc] at runs
    generalize he : journal ++ later ++ [item] = all at runs
    cases runs with
    | start => simp at he
    | next runs step =>
      obtain ⟨rfl, _⟩ := List.append_inj' he rfl
      exact ih runs

theorem Runs.append (runs : Runs p first journal desk) (more : Runs p desk later desk') :
    Runs p first (journal ++ later) desk' := by
  induction more with
  | start => simpa using runs
  | next _ step ih =>
    rw [← List.append_assoc]
    exact ih.next step

theorem follow_outcome {request : Request} {event : Event} (h : request.Outcome event)
    (last : Option (Request × List Event)) :
    follow last (.told event) = last.map fun (other, events) => (other, events ++ [event]) := by
  cases h <;> rfl

theorem Step.current (step : Step p desk item desk') (h : desk.post.Current (current journal)) :
    desk'.post.Current (Desk.current (journal ++ [item])) := by
  rw [current_append]
  cases step with
  | asked request => exact h
  | log desk line => exact h
  | fatal desk message => exact h
  | connected waiting | passedOver waiting message =>
    have hnone : Desk.current journal = none := h
    rw [hnone]
    rfl
  | idle waiting =>
    have hnone : Desk.current journal = none := h
    rw [hnone]
    intro request events he
    simp [follow] at he
  | complaint waiting =>
    intro request events he
    obtain ⟨⟨other, before⟩, hlast, hpair⟩ := Option.map_eq_some_iff.mp he
    obtain ⟨rfl, rfl⟩ := Prod.mk.inj hpair
    obtain ⟨outcome, complaints, rfl, houtcome, hall⟩ := h _ _ hlast
    refine ⟨outcome, complaints ++ [Desk.complaint], rfl, houtcome, ?_⟩
    intro event hm
    rcases List.mem_append.mp hm with hm | hm
    · exact hall event hm
    · rw [List.mem_singleton.mp hm]
      exact ⟨rfl, Request.not_outcome_complaint _⟩
  | begun request waiting => exact rfl
  | @outcome request event waiting houtcome =>
    have hlast : Desk.current journal = some (request, []) := h
    rw [follow_outcome houtcome, hlast]
    intro other events he
    obtain ⟨rfl, rfl⟩ := Prod.mk.inj (Option.some.inj he)
    exact ⟨event, [], rfl, houtcome, by simp⟩

theorem Runs.current (runs : Runs p ⟨.login, []⟩ journal desk) :
    desk.post.Current (current journal) := by
  induction runs with
  | start => exact rfl
  | next _ step ih => exact step.current ih

/-- Before the end of the login nothing is begun. Afterwards what has been begun and what is waiting
make up all that has been asked for, in order, behind what was waiting from the first. -/
theorem Runs.tally {early : List Request} (runs : Runs p ⟨.login, early⟩ journal desk) :
    (desk.post = .login →
        .idle ∉ told journal ∧ begun journal = [] ∧ desk.waiting = early ++ asked journal) ∧
      (desk.post ≠ .login → .idle ∈ told journal ∧
        begun journal ++ desk.waiting = p.automatic ++ early ++ asked journal) := by
  induction runs with
  | start => simp [told, begun, asked]
  | @next journal desk desk' item _ step ih =>
    cases step with
    | @asked post waiting request =>
      obtain ⟨htold, hbegun, hasked⟩ := append_asked journal request
      rw [htold, hbegun, hasked]
      refine ⟨fun hp => ?_, fun hp => ?_⟩
      · obtain ⟨hidle, hnone, hwaiting⟩ := ih.1 hp
        refine ⟨hidle, hnone, ?_⟩
        rw [← List.append_assoc]
        exact congrArg (· ++ [request]) hwaiting
      · obtain ⟨hidle, hall⟩ := ih.2 hp
        refine ⟨hidle, ?_⟩
        rw [← List.append_assoc, ← List.append_assoc]
        exact congrArg (· ++ [request]) hall
    | log desk line | fatal desk message =>
      obtain ⟨htold, hbegun, hasked⟩ := append_told journal _
      rw [htold, hbegun, hasked]
      simpa using ih
    | connected waiting | passedOver waiting message | complaint waiting =>
      obtain ⟨htold, hbegun, hasked⟩ := append_told journal _
      rw [htold, hbegun, hasked]
      simpa [Desk.complaint] using ih
    | idle waiting =>
      obtain ⟨_, hnone, hwaiting⟩ := ih.1 rfl
      obtain ⟨htold, hbegun, hasked⟩ := append_told journal .idle
      rw [htold, hbegun, hasked, hnone]
      refine ⟨nofun, fun _ => ⟨by simp, ?_⟩⟩
      rw [List.append_assoc]
      exact congrArg (p.automatic ++ ·) hwaiting
    | begun request waiting =>
      obtain ⟨hidle, hall⟩ := ih.2 nofun
      obtain ⟨htold, hbegun, hasked⟩ := append_begun journal request
      rw [htold, hbegun, hasked]
      refine ⟨nofun, fun _ => ⟨hidle, ?_⟩⟩
      rw [List.append_assoc]
      exact hall
    | @outcome request event waiting houtcome =>
      obtain ⟨hidle, hall⟩ := ih.2 nofun
      obtain ⟨htold, hbegun, hasked⟩ := append_told journal event
      rw [htold, hbegun, hasked]
      exact ⟨nofun, fun _ => ⟨List.mem_append_left _ hidle, hall⟩⟩

theorem Runs.balance (runs : Runs p ⟨.login, []⟩ journal desk) :
    (desk.post = .login → .idle ∉ told journal ∧ begun journal = [] ∧ desk.waiting = asked journal) ∧
      (desk.post ≠ .login → .idle ∈ told journal ∧
        begun journal ++ desk.waiting = p.automatic ++ asked journal) := by
  simpa using runs.tally

/-- What has been begun comes from the front of all that has been asked for. -/
theorem Runs.order {early : List Request} (runs : Runs p ⟨.login, early⟩ journal desk) :
    begun journal <+: p.automatic ++ early ++ asked journal := by
  by_cases hp : desk.post = .login
  · rw [(runs.tally.1 hp).2.1]
    exact List.nil_prefix
  · exact ⟨desk.waiting, (runs.tally.2 hp).2⟩

theorem Step.told_cases (step : Step p desk item desk') {event : Event} (he : item = .told event) :
    event ≠ refusal ∧ ((∃ request, desk.post = .busy request) ∨ ∀ request : Request, ¬request.Outcome event) := by
  subst he
  generalize hi : Item.told event = item at step
  cases step with
  | asked | begun => simp at hi
  | log | fatal | connected | idle =>
    cases hi
    exact ⟨nofun, Or.inr fun _ => nofun⟩
  | passedOver waiting message =>
    cases hi
    refine ⟨?_, Or.inr fun request => Request.not_outcome_passedOver request message⟩
    intro he
    have hletters := congrArg String.toList (Event.error.inj he)
    simp [String.toList_append] at hletters
  | complaint waiting =>
    cases hi
    exact ⟨by decide, Or.inr Request.not_outcome_complaint⟩
  | outcome waiting houtcome =>
    cases hi
    exact ⟨fun he => Request.not_outcome_refusal _ (he ▸ houtcome), Or.inl ⟨_, rfl⟩⟩

theorem Runs.accepted (runs : Runs p first journal desk) : refusal ∉ told journal := by
  induction runs with
  | start => simp [told]
  | @next journal _ _ item _ step ih =>
    rw [told_append]
    intro hm
    rcases List.mem_append.mp hm with hm | hm
    · exact ih hm
    · obtain ⟨other, ho, he⟩ := List.mem_filterMap.mp hm
      rw [List.mem_singleton.mp ho] at he
      cases item with
      | told event =>
        cases he
        exact (step.told_cases rfl).1 rfl
      | asked | begun => simp at he

theorem Runs.quiet (runs : Runs p ⟨.login, []⟩ journal desk) (hnone : Desk.current journal = none) :
    ∀ event ∈ told journal, ∀ request : Request, ¬request.Outcome event := by
  induction runs with
  | start => simp [told]
  | @next journal _ _ item runs step ih =>
    have hcurrent := runs.current
    rw [current_append] at hnone
    have hbefore : Desk.current journal = none := by
      cases hlast : Desk.current journal with
      | none => rfl
      | some last =>
        rw [hlast] at hnone
        cases item with
        | asked | begun => simp [follow] at hnone
        | told event => cases event <;> simp [follow] at hnone
    intro event hm
    rw [told_append] at hm
    rcases List.mem_append.mp hm with hm | hm
    · exact ih hbefore event hm
    · obtain ⟨other, ho, he⟩ := List.mem_filterMap.mp hm
      rw [List.mem_singleton.mp ho] at he
      cases item with
      | asked | begun => simp at he
      | told event' =>
        cases he
        rcases (step.told_cases rfl).2 with ⟨request, hbusy⟩ | hall
        · rw [hbusy, Post.Current, hbefore] at hcurrent
          simp at hcurrent
        · exact hall

theorem Runs.orderly (runs : Runs p ⟨.login, []⟩ journal desk) : Orderly p journal := by
  refine ⟨?_, ?_, ?_, ?_, runs.accepted⟩
  · simpa using runs.order
  · rintro before request events ⟨after, rfl⟩ hlast
    obtain ⟨⟨post, waiting⟩, hbefore⟩ := runs.of_append
    have hcurrent := hbefore.current
    rw [hlast] at hcurrent
    cases post with
    | login => simp [Post.Current] at hcurrent
    | free => exact Or.inr (hcurrent request events rfl)
    | busy other =>
      obtain ⟨_, rfl⟩ := Prod.mk.inj (Option.some.inj hcurrent)
      exact Or.inl rfl
  · rintro before next request events ⟨after, rfl⟩ hlast
    obtain ⟨_, hbegun⟩ := runs.of_append
    generalize he : before ++ [.begun next] = all at hbegun
    cases hbegun with
    | start => simp at he
    | next hbefore step =>
      obtain ⟨rfl, hi⟩ := List.append_inj' he rfl
      cases hi
      have hcurrent := hbefore.current
      cases step with
      | begun => exact hcurrent request events hlast
  · rintro before ⟨after, rfl⟩ hnone
    obtain ⟨_, hbefore⟩ := runs.of_append
    exact hbefore.quiet hnone

end Desk

end FtpControl
