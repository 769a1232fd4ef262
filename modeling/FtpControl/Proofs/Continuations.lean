import FtpControl.Proofs.Coupling
import FtpControl.Proofs.SessionInvariance
import FtpControl.Proofs.ReplyJudgement

namespace FtpControl

def Reply.GoesOn (line : String) : Prop :=
  ∃ reply, ofLine? line.toList = some reply ∧ reply.last = false

def Reply.Ends (line : String) : Prop :=
  ∃ reply, ofLine? line.toList = some reply ∧ reply.last = true

def Stage.awaitsReply : Stage → Bool
  | .notConnected | .loggedIn | .awaitingHandshake => false
  | _ => true

namespace Session

def hears (s : Session) (lines : List (Date × String)) : Session :=
  lines.foldl (fun s line => s.notice line.1 (.line line.2)) s

/-- The session with some lines more in its log and as many reads more in its queue. -/
def noting (s : Session) (lines : List String) : Session :=
  { s with
    transport := { s.transport with
      queue := s.transport.queue ++ List.replicate lines.length .readLine }
    news := s.news ++ lines.map .log }

/-- The session without its news and without the reads that it has queued. -/
def bare (s : Session) : Session :=
  { s with
    transport := { s.transport with queue := s.transport.queue.filter (· ≠ .readLine) }
    news := [] }

/-- The session with nothing told and nothing queued. -/
def fresh (s : Session) : Session :=
  { s with
    transport := { s.transport with queue := [] }
    news := [] }

/-- The session behind other news, with other operations in front of its own as long as it has a
connection. -/
def Guise.after (past : List Event) (queue : List Operation) : Guise where
  past
  password text := text
  transport t := if t.isOpen then { t with queue := queue ++ t.queue } else t
  isOpen t := by split <;> rfl
  encrypted t := by split <;> rfl
  disconnect t := by
    rw [if_neg (by simp [Transport.isOpen, Transport.disconnect])]
    split <;> rfl
  connect t host port family := by
    rw [if_neg (by simp [Transport.isOpen, Transport.connect, Transport.disconnect])]
    split <;> rfl
  push t op := by
    have hpush : (t.push op).isOpen = t.isOpen := rfl
    rw [hpush]
    split
    next => simp [Transport.push]
    next => rfl

variable {s : Session} {line : String}

theorem hears_append (s : Session) (lines more : List (Date × String)) :
    s.hears (lines ++ more) = (s.hears lines).hears more :=
  List.foldl_append

theorem hears_singleton (s : Session) (today : Date) (line : String) :
    s.hears [(today, line)] = s.handleLine today line :=
  rfl

theorem judge_goesOn_iff : judge line = .continued ↔ Reply.GoesOn line := by
  constructor
  · intro h
    cases hreply : Reply.ofLine? line.toList with
    | none => simp [judge_invalid_iff.mpr hreply] at h
    | some reply => exact ⟨reply, hreply, (judge_continued_iff hreply).mp h⟩
  · rintro ⟨reply, hreply, goes_on⟩
    exact (judge_continued_iff hreply).mpr goes_on

/-- Whatever reply is waited for, a line that does not end it is logged and another one is asked for. -/
theorem handleLine_noted (today : Date) (awaits : s.stage.awaitsReply = true)
    (hopen : s.transport.isOpen = true) (h : Reply.GoesOn line) :
    s.handleLine today line = s.noting [line] := by
  have hjudge := judge_goesOn_iff.mpr h
  have accepts : ∀ next, s.accept line next = s.noting [line] := by
    intro next
    have hopen' : (s.log line).transport.isOpen = true := hopen
    simp only [accept, hjudge]
    exact readNext_of_open hopen'
  unfold handleLine
  cases hs : s.stage with
  | notConnected | loggedIn | awaitingHandshake => simp [hs, Stage.awaitsReply] at awaits
  | awaitingStat =>
    simp only [handleStat, hjudge, reduceCtorEq, ↓reduceIte]
    exact accepts _
  | _ => exact accepts _

theorem noting_noting (s : Session) (lines more : List String) :
    (s.noting lines).noting more = s.noting (lines ++ more) := by
  simp [noting]

theorem hears_notes {notes : List (Date × String)} (awaits : s.stage.awaitsReply = true)
    (hopen : s.transport.isOpen = true) (h : ∀ note ∈ notes, Reply.GoesOn note.2) :
    s.hears notes = s.noting (notes.map Prod.snd) := by
  induction notes generalizing s with
  | nil => simp [hears, noting]
  | cons note notes ih =>
    have hfirst : s.handleLine note.1 note.2 = s.noting [note.2] :=
      handleLine_noted note.1 awaits hopen (h note List.mem_cons_self)
    change (s.handleLine note.1 note.2).hears notes = _
    rw [hfirst, ih (s := s.noting [note.2]) awaits hopen fun other ho => h other (List.mem_cons_of_mem _ ho),
      noting_noting]
    rfl

theorem handleLine_eq_after (today : Date) (hopen : s.transport.isOpen = true) (line : String) :
    s.handleLine today line =
      (Guise.after s.news s.transport.queue).session (s.fresh.handleLine today line) := by
  have htransport : (Guise.after s.news s.transport.queue).transport s.fresh.transport = s.transport := by
    have hfresh : s.fresh.transport.isOpen = true := hopen
    exact (if_pos hfresh).trans (by simp [fresh])
  have hself : (Guise.after s.news s.transport.queue).session s.fresh = s := by
    rw [Guise.session, htransport]
    simp [Guise.after, fresh]
  rw [Guise.session_handleLine _ today line fun _ => rfl, hself]

theorem bare_after {past past' : List Event} {queue queue' : List Operation}
    (h : queue.filter (· ≠ .readLine) = queue'.filter (· ≠ .readLine)) (s : Session) :
    ((Guise.after past queue).session s).bare = ((Guise.after past' queue').session s).bare := by
  unfold bare
  simp only [Guise.session, Guise.after]
  split
  next => simp only [List.filter_append, h]
  next => rfl

/-- Wherever a reply is waited for, its lines but the last leave their traces in the log and in the reads
that are queued. All else that comes of whatever line is next is the same as without them. -/
theorem continuations_transparent {notes : List (Date × String)} (awaits : s.stage.awaitsReply = true)
    (hopen : s.transport.isOpen = true) (h : ∀ note ∈ notes, Reply.GoesOn note.2) (today : Date)
    (final : String) :
    s.hears notes = { s with
      transport := { s.transport with
        queue := s.transport.queue ++ List.replicate notes.length .readLine }
      news := s.news ++ notes.map fun note => .log note.2 } ∧
    (s.hears (notes ++ [(today, final)])).bare = (s.hears [(today, final)]).bare ∧
    ∃ told, (s.hears [(today, final)]).news = s.news ++ told ∧
      (s.hears (notes ++ [(today, final)])).news =
        s.news ++ (notes.map fun note => .log note.2) ++ told := by
  have hnotes := hears_notes awaits hopen h
  have hopen' : (s.noting (notes.map Prod.snd)).transport.isOpen = true := hopen
  -- With and without the notes the session is the same fresh one, in two guises.
  have hfresh : (s.noting (notes.map Prod.snd)).fresh = s.fresh := rfl
  have alone := handleLine_eq_after today hopen final
  have behind := handleLine_eq_after today hopen' final
  rw [hfresh] at behind
  rw [hears_append, hears_singleton, hears_singleton, hnotes]
  refine ⟨?_, ?_, (s.fresh.handleLine today final).news, ?_, ?_⟩
  · simp [noting, Function.comp_def]
  · rw [alone, behind]
    refine bare_after ?_ _
    simp [noting]
  · rw [alone]
    rfl
  · rw [behind]
    simp [Guise.session, Guise.after, noting, Function.comp_def]

/-- A login succeeds by its last line, however bad the codes of the lines before it. -/
theorem failures_in_mid_login :
    ∃ (s : Session) (notes : List (Date × String)) (today : Date), s.stage = .awaitingPass ∧
      notes.map Prod.snd = ["530- Not yet", "999- Nor yet"] ∧
      (s.hears (notes ++ [(today, "230 Welcome")])).bare = (s.hears [(today, "230 Welcome")]).bare ∧
      (s.hears (notes ++ [(today, "230 Welcome")])).stage = .loggedIn ∧
      (s.hears (notes ++ [(today, "230 Welcome")])).deferred = [.changeDirectory "/pub"] ∧
      (s.hears (notes ++ [(today, "230 Welcome")])).news =
        [.log "530- Not yet", .log "999- Nor yet", .log "230 Welcome", .idle] := by
  let today : Date := ⟨2024, 1, 1, by decide⟩
  let p : Profile := {
    host := "localhost"
    username := "user"
    password := "secret"
    initialDirectory := "/pub"
    listAfterLogin := false }
  let s : Session :=
    { create p true with
      stage := .awaitingPass
      transport := { trust := {}, stream := some ⟨0, false⟩ } }
  let notes : List (Date × String) := [(today, "530- Not yet"), (today, "999- Nor yet")]
  have h : ∀ note ∈ notes, Reply.GoesOn note.2 := by
    intro note hn
    rcases List.mem_pair.mp hn with rfl | rfl
    · exact ⟨⟨530, false, "Not yet".toList⟩, by decide +kernel, rfl⟩
    · exact ⟨⟨999, false, "Nor yet".toList⟩, by decide +kernel, rfl⟩
  obtain ⟨_, same, told, halone, hbehind⟩ :=
    continuations_transparent (s := s) rfl rfl h today "230 Welcome"
  have stage : (s.hears [(today, "230 Welcome")]).bare.stage = .loggedIn := by decide +kernel
  have deferred : (s.hears [(today, "230 Welcome")]).bare.deferred = [.changeDirectory "/pub"] := by
    decide +kernel
  have news : (s.hears [(today, "230 Welcome")]).news = [.log "230 Welcome", .idle] := by decide +kernel
  obtain rfl : told = [.log "230 Welcome", .idle] := by rw [← news, halone]; rfl
  rw [← same] at stage deferred
  exact ⟨s, notes, today, rfl, rfl, same, stage, deferred, hbehind⟩

end Session

end FtpControl
