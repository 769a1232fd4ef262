import FtpControl.Proofs.Response
import FtpControl.Proofs.ListingEvents

namespace FtpControl

open LineBuffer (feed Framed Bounded text)
open Session (judge)

namespace LineBuffer

theorem Framed.of_whole {stream rest : List UInt8} {lines whole : List String}
    (h : Framed stream lines rest) (h' : Framed stream whole []) : lines <+: whole := by
  rw [h.told, h'.complete List.not_mem_nil]
  exact (List.take_prefix _ _).map text

theorem Framed.rest_eq {stream rest rest' : List UInt8} {lines : List String}
    (h : Framed stream lines rest) (h' : Framed stream lines rest') : rest = rest' :=
  List.append_cancel_left (h.ahead.symm.trans h'.ahead)

end LineBuffer

namespace Session

variable {s : Session} {line : String}

theorem handleLine_closes (today : Date) {code : UInt16} {entries : List Entry}
    (stage : s.stage = .awaitingStat) (accepted : judge line = .accepted code)
    (hread : Listing.read today s.profile.strictListing s.listing.toList = .ok entries) :
    s.handleLine today line = { s with
      stage := .loggedIn
      listing := #[]
      news := s.news ++ [.log line] ++ [.listing entries] } := by
  rw [handleLine_granted today stage accepted, Listing.report, hread]
  simp

end Session

namespace Runner

open Listing (Response)

/-- What comes next while the answer is waited for: the command goes out before anything is received,
and a read that waits has found no line. -/
inductive Awaits (came buffer : List UInt8) : Phase → List Operation → Prop
  | writes {line : String} : came = [] → Awaits came buffer .head [.writeLine line, .readLine]
  | write {line : String} : came = [] →
      Awaits came buffer (.ready (.writeLine line) false) [.readLine]
  | transmits {stream : Stream} {rest : List UInt8} : came = [] →
      Awaits came buffer (.waiting (.transmit stream rest) false) [.readLine]
  | reads : Awaits came buffer .head [.readLine]
  | read : Awaits came buffer (.ready .readLine false) []
  | receives {stream : Stream} : feed ∉ buffer →
      Awaits came buffer (.waiting (.receive stream) false) []

/-- These lines of the answer have been taken, and its reply has not ended. -/
structure Receiving (response : Response) (base : List Event) (came : List UInt8) (lines : List String)
    (r : Runner) : Prop where
  lists : r.session.Lists base []
  stage : r.session.stage = .awaitingStat
  connected : ∃ stream, r.session.transport.stream = some stream
  awaits : Awaits came r.session.transport.buffer r.phase r.session.transport.queue
  body : lines <+: response.body
  framed : Framed came lines r.session.transport.buffer
  listing : r.session.listing.toList = lines.filter (judge · = .invalid)

/-- The listing is still to be told, or it has been told, or the connection was lost before. -/
inductive Stands (response : Response) (base : List Event) (came : List UInt8) (r : Runner) : Prop
  | receiving {lines : List String} : Receiving response base came lines r → Stands response base came r
  | told : came = response.bytes → r.session.Quiet base [response.entries] → Stands response base came r
  | lost : r.Gone → r.session.Quiet base [] → (came = response.bytes → r.phase = .over) →
      Stands response base came r

variable {response : Response} {base : List Event} {came bytes : List UInt8} {lines : List String}
  {r r' : Runner} {today : Date} {input : Input}

theorem step_head {op : Operation} {queue : List Operation} (hp : r.phase = .head)
    (hq : r.session.transport.queue = op :: queue) (today : Date) : r.step? today .proceed =
      some ⟨{ r.session with transport := { r.session.transport with queue } }, .ready op false⟩ := by
  simp [step?, hp, atHead, Transport.next?, hq]

theorem step_ready {op : Operation} {watch : Bool} (hp : r.phase = .ready op watch) (today : Date) :
    r.step? today .proceed = some (settle today r.session watch (r.session.transport.begin op)) := by
  simp [step?, hp]

theorem Receiving.reads (h : Receiving response base came lines r) :
    Receiving response base came lines
      ⟨{ r.session with transport := { r.session.transport with queue := [] } }, .ready .readLine false⟩ :=
  ⟨h.lists, h.stage, h.connected, .read, h.body, h.framed, h.listing⟩

def given (s : Session) (rest : List UInt8) : Session :=
  { s with transport := { s.transport with buffer := rest } }

theorem Receiving.takes {rest : List UInt8} {line : String} (h : Receiving response base came lines r)
    (queue : r.session.transport.queue = []) (framed : Framed bytes (lines ++ [line]) rest)
    (body : lines ++ [line] <+: response.body) (today : Date)
    (hr : r' = { session := (given r.session rest).handleLine today line }) :
    Receiving response base bytes (lines ++ [line]) r' ∧ r'.phase = .head ∧
      r'.session.transport.queue = [.readLine] ∧ r'.session.transport.buffer = rest := by
  obtain ⟨stream, connected⟩ := h.connected
  have hopen : (given r.session rest).transport.isOpen = true := by
    simp [given, Transport.isOpen, connected]
  have hjudge := response.judge_body line (body.subset (by simp))
  obtain ⟨notes, listing, hline, hlisting⟩ :=
    (given r.session rest).handleLine_goes_on today h.stage hopen hjudge
  rw [hline] at hr
  have hlists := h.lists.tell (t := r'.session) (by rw [hr]; rfl)
  rw [Event.listings_log, List.append_nil] at hlists
  have hbefore : (given r.session rest).listing.toList = lines.filter (judge · = .invalid) := h.listing
  rw [hbefore, ← List.filter_append] at hlisting
  have hqueue : ((given r.session rest).transport.push .readLine).queue = [.readLine] := by
    simp [given, Transport.push, queue]
  rw [hr] at hlists ⊢
  refine ⟨?_, rfl, hqueue, rfl⟩
  refine ⟨hlists, h.stage, ⟨stream, connected⟩, ?_, body, framed, hlisting⟩
  dsimp only
  rw [hqueue]
  exact .reads

theorem Receiving.closes {rest : List UInt8} (h : Receiving response base came response.body r)
    (today : Date) (hr : r' = { session :=
      (given r.session rest).handleLine today (delivered response.closing.line) }) :
    r'.session.Lists base [response.entries] ∧ r'.session.transport.buffer = rest := by
  obtain ⟨code, accepted⟩ := response.judge_closing
  have hlisting : (given r.session rest).listing.toList = response.body.filter (judge · = .invalid) :=
    h.listing
  have hread := response.read_body today (given r.session rest).profile.strictListing
  rw [← hlisting] at hread
  rw [(given r.session rest).handleLine_closes today h.stage accepted hread] at hr
  have hnews : r'.session.news = r.session.news ++
      ([.log (delivered response.closing.line)] ++ [.listing response.entries]) := by
    rw [hr, ← List.append_assoc]
    rfl
  exact ⟨h.lists.tell hnews, by rw [hr]; rfl⟩

/-- A read comes to the next line of the answer, or to the end of its reply, or it waits for more. -/
theorem Receiving.read_cases (h : Receiving response base came lines r)
    (queue : r.session.transport.queue = []) (part : came ++ bytes <+: response.bytes)
    {t : Transport} (ht : t = { r.session.transport with buffer := r.session.transport.buffer ++ bytes })
    (today : Date) (hr : r' = settle today r.session false t.readOn) :
    (∃ later, Receiving response base (came ++ bytes) later r' ∧ r'.phase = .head ∧
        r'.session.transport.queue = [.readLine] ∧
        r'.session.transport.buffer.length < (r.session.transport.buffer ++ bytes).length) ∨
      (came ++ bytes = response.bytes ∧ r'.session.Quiet base [response.entries]) ∨
      (Receiving response base (came ++ bytes) lines r' ∧
        ∃ stream, r'.phase = .waiting (.receive stream) false) := by
  obtain ⟨stream, connected⟩ := h.connected
  obtain ⟨more, hmore⟩ := part
  have hbuffer : t.buffer = r.session.transport.buffer ++ bytes := by rw [ht]
  have hstream : t.stream = some stream := by rw [ht]; exact connected
  have framed : Framed (came ++ bytes) lines t.buffer := by
    rw [hbuffer]
    exact h.framed.append bytes
  have bounded : Bounded (came ++ bytes) := by
    have hbounded := response.bounded
    rw [← hmore] at hbounded
    exact hbounded.of_append
  rcases Transport.readOn_cases hstream (framed.short bounded) with
    ⟨head, rest, hn, hsplit, hread⟩ | ⟨hn, hread⟩
  · rw [hsplit] at framed
    have hline := framed.line hn
    have hwhole : Framed response.bytes (lines ++ [text head]) (rest ++ more) := by
      rw [← hmore]
      exact hline.append more
    have hgiven : r' = { session := (given r.session rest).handleLine today (text head) } := by
      rw [hr, hread, ht]
      rfl
    rcases List.prefix_concat_iff.mp (hwhole.of_whole response.framed) with hall | hbody
    · obtain ⟨rfl, hclosing⟩ := List.append_inj' hall rfl
      rw [List.singleton_inj.mp hclosing] at hwhole hgiven
      obtain ⟨hrest, hnone⟩ := List.append_eq_nil_iff.mp (hwhole.rest_eq response.framed)
      obtain ⟨hlists, hempty⟩ := h.closes today hgiven
      refine Or.inr (Or.inl ⟨?_, hlists, hempty.trans hrest⟩)
      rw [← hmore, hnone, List.append_nil]
    · obtain ⟨hlater, hhead, hqueue, hrest⟩ := h.takes queue hline hbody today hgiven
      refine Or.inl ⟨_, hlater, hhead, hqueue, ?_⟩
      rw [hrest, ← hbuffer, hsplit, List.length_append, List.length_cons]
      omega
  · have hwaits : r' = ⟨{ r.session with transport := t }, .waiting (.receive stream) false⟩ := by
      rw [hr, hread]
      rfl
    have hqueue : t.queue = [] := by
      rw [ht]
      exact queue
    refine Or.inr (Or.inr ⟨?_, stream, by rw [hwaits]⟩)
    rw [hwaits]
    refine ⟨h.lists, h.stage, ⟨stream, hstream⟩, ?_, h.body, framed, h.listing⟩
    change Awaits _ _ _ t.queue
    rw [hqueue]
    exact .receives hn

theorem Receiving.read_stands (h : Receiving response base came lines r)
    (queue : r.session.transport.queue = []) (part : came ++ bytes <+: response.bytes)
    {t : Transport} (ht : t = { r.session.transport with buffer := r.session.transport.buffer ++ bytes })
    (today : Date) :
    Stands response base (came ++ bytes) (settle today r.session false t.readOn) := by
  rcases h.read_cases queue part ht today rfl with ⟨later, hlater, _⟩ | ⟨hall, quiet⟩ | ⟨hwaits, _⟩
  · exact .receiving hlater
  · exact .told hall quiet
  · exact .receiving hwaits

/-- While no line is in store, part of the answer is missing. -/
theorem Receiving.missing (h : Receiving response base came lines r)
    (hn : feed ∉ r.session.transport.buffer) : came ≠ response.bytes := by
  rintro rfl
  have hall := h.framed.complete hn
  rw [← response.framed.complete List.not_mem_nil] at hall
  have hle := h.body.length_le
  rw [hall, List.length_append, List.length_singleton] at hle
  omega

theorem Receiving.fails (h : Receiving response base came lines r) (missing : bytes ≠ response.bytes)
    (today : Date) (t : Transport) (message : String) :
    Stands response base bytes (settle today r.session false (t.fatal message)) :=
  .lost (gone_fail _ _) (settle_quiet today false h.lists (Transport.fatal_silent t message))
    fun he => absurd he missing

theorem Receiving.step_request {request : Request} (h : Receiving response base came lines r)
    (hi : request.interrupts = false) (hs : r.step? today (.request request) = some r') :
    Receiving response base came lines r' := by
  obtain ⟨s, phase⟩ := r
  have hr : r' = ⟨{ s with deferred := s.deferred ++ [request] }, phase⟩ := by
    have awaits := h.awaits
    dsimp only at awaits
    generalize s.transport.queue = queue at awaits
    cases awaits with
    | writes | reads => simp [step?] at hs
    | write | transmits | read | receives => simpa [step?, interrupt, hi, eq_comm] using hs
  rw [hr]
  exact ⟨h.lists, h.stage, h.connected, h.awaits, h.body, h.framed, h.listing⟩

theorem Receiving.step_close (h : Receiving response base came lines r)
    (hs : r.step? today .close = some r') : Stands response base came r' := by
  obtain ⟨s, phase⟩ := r
  have hr : r' = finish s := by
    have awaits := h.awaits
    dsimp only at awaits
    generalize s.transport.queue = queue at awaits
    cases awaits with
    | writes | reads => simp [step?] at hs
    | write | transmits | read | receives => simpa [step?, eq_comm] using hs
  rw [hr]
  exact .lost (Or.inl rfl) ⟨h.lists, rfl⟩ fun _ => rfl

theorem Receiving.step_proceed (h : Receiving response base came lines r)
    (part : came <+: response.bytes) (hs : r.step? today .proceed = some r') :
    Stands response base came r' := by
  obtain ⟨s, phase⟩ := r
  obtain ⟨stream, connected⟩ := h.connected
  have awaits := h.awaits
  dsimp only at connected awaits
  generalize hq : s.transport.queue = queue at awaits
  cases awaits with
  | @writes line hcame =>
    rw [step_head rfl hq] at hs
    cases hs
    exact .receiving ⟨h.lists, h.stage, h.connected, .write hcame, h.body, h.framed, h.listing⟩
  | @write line hcame =>
    have hr : r' = ⟨s, .waiting (.transmit stream (LineBuffer.encode line)) false⟩ := by
      simpa [step?, Transport.begin, Transport.beginWrite, connected, settle, eq_comm] using hs
    rw [hr]
    refine .receiving ⟨h.lists, h.stage, h.connected, ?_, h.body, h.framed, h.listing⟩
    dsimp only
    rw [hq]
    exact .transmits hcame
  | reads =>
    rw [step_head rfl hq] at hs
    cases hs
    exact .receiving h.reads
  | read =>
    rw [step_ready rfl] at hs
    cases hs
    have hpart : came ++ [] <+: response.bytes := by rwa [List.append_nil]
    have hstands := h.read_stands hq hpart (t := s.transport) (by simp) today
    rw [List.append_nil] at hstands
    exact hstands
  | transmits | receives => simp [step?] at hs

theorem bytes_of_other {answer : FtpControl.Answer} (hn : ∀ chunk, answer ≠ .received chunk) :
    (Input.answer answer).bytes = [] := by
  cases answer with
  | received chunk => exact absurd rfl (hn chunk)
  | _ => rfl

/-- The network takes the command or gives more of the answer, or the connection is lost. -/
theorem Receiving.step_answer {answer : FtpControl.Answer} (h : Receiving response base came lines r)
    (part : came ++ (Input.answer answer).bytes <+: response.bytes)
    (hs : r.step? today (.answer answer) = some r') :
    Stands response base (came ++ (Input.answer answer).bytes) r' := by
  obtain ⟨s, phase⟩ := r
  have awaits := h.awaits
  dsimp only at awaits
  generalize hq : s.transport.queue = queue at awaits
  cases awaits with
  | @transmits stream rest hcame =>
    obtain ⟨x, hx, rfl⟩ := Option.map_eq_some_iff.mp hs
    rcases Transport.resume_transmit hx with ⟨count, rfl, rfl⟩ | ⟨_, message, rfl⟩
    · change Stands response base (came ++ []) _
      rw [List.append_nil]
      have hstays : ∀ phase, Awaits came s.transport.buffer phase s.transport.queue →
          Stands response base came ⟨s, phase⟩ := fun phase hawaits =>
        .receiving ⟨h.lists, h.stage, h.connected, hawaits, h.body, h.framed, h.listing⟩
      split
      next => exact hstays .head (by rw [hq]; exact .reads)
      next => exact hstays _ (by rw [hq]; exact .transmits hcame)
    · have hother : ∀ chunk, answer ≠ .received chunk := by
        rintro chunk rfl
        simp [Transport.resume] at hx
      rw [bytes_of_other hother, List.append_nil]
      exact h.fails (response.ne_bytes_of_nil hcame) today _ message
  | @receives stream hn =>
    obtain ⟨x, hx, rfl⟩ := Option.map_eq_some_iff.mp hs
    rcases Transport.resume_receive hx with ⟨chunk, rfl, rfl⟩ | ⟨hother, message, rfl⟩
    · exact h.read_stands hq part rfl today
    · rw [bytes_of_other hother, List.append_nil]
      exact h.fails (h.missing hn) today _ message
  | writes | write | reads | read => simp [step?] at hs

/-- Where the session stands in its listing stays clear from step to step. -/
theorem Stands.step (h : Stands response base came r) (hs : r.step? today input = some r')
    (calm : ∀ request, input = .request request → request.interrupts = false)
    (part : came ++ input.bytes <+: response.bytes) :
    Stands response base (came ++ input.bytes) r' := by
  cases h with
  | receiving h =>
    cases input with
    | answer answer => exact h.step_answer part hs
    | proceed =>
      change Stands response base (came ++ []) r'
      rw [List.append_nil]
      exact h.step_proceed ((List.prefix_append _ _).trans part) hs
    | request request =>
      change Stands response base (came ++ []) r'
      rw [List.append_nil]
      exact .receiving (h.step_request (calm request rfl) hs)
    | close =>
      change Stands response base (came ++ []) r'
      rw [List.append_nil]
      exact h.step_close hs
  | told hall quiet =>
    have hbytes : input.bytes = [] := by
      have hle := part.length_le
      rw [hall, List.length_append] at hle
      exact List.length_eq_zero_iff.mp (by omega)
    rw [hbytes, List.append_nil]
    exact .told hall (step_quiet hs quiet hbytes)
  | lost gone quiet hover =>
    obtain ⟨gone', hbytes⟩ := gone.step hs calm
    rw [hbytes, List.append_nil]
    refine .lost gone' (step_quiet hs quiet hbytes) fun hall => ?_
    have hphase := hover hall
    obtain ⟨s, phase⟩ := r
    dsimp only at hphase
    subst hphase
    simp [step?] at hs

theorem run_stands {moves : List Move} {asked : Runner} (h : Stands response base [] asked)
    (run : Run asked moves r)
    (calm : ∀ m ∈ moves, ∀ request, m.input = .request request → request.interrupts = false)
    (part : received moves <+: response.bytes) : Stands response base (received moves) r := by
  induction run with
  | start => exact h
  | @next moves r today input r' _ hs ih =>
    rw [received_append] at part ⊢
    have hbefore := ih (fun m hm => calm m (List.mem_append_left _ hm))
      ((List.prefix_append _ _).trans part)
    have hcalm := calm ⟨r, input, r'⟩ (List.mem_append_right _ (List.mem_singleton_self _))
    exact hbefore.step hs hcalm part

/-- Going on by itself, whatever the days, the session comes to where this holds. -/
inductive Eventually (goal : Runner → Prop) : Runner → Prop
  | now {r : Runner} : goal r → Eventually goal r
  | proceed {r : Runner} {next : Date → Runner} :
      (∀ today, r.step? today .proceed = some (next today)) →
      (∀ today, Eventually goal (next today)) → Eventually goal r

/-- The listing has been told, or part of the answer is missing and the session waits for the network
or has lost its connection. -/
def AtRest (response : Response) (base : List Event) (came : List UInt8) (r : Runner) : Prop :=
  r.session.Lists base [response.entries] ∨ came ≠ response.bytes ∧
    (r.session.stage = .notConnected ∨ ∃ wait, r.phase = .waiting wait false)

theorem Receiving.missing_of_waiting {wait : Wait} {watch : Bool} (h : Receiving response base came lines r)
    (hp : r.phase = .waiting wait watch) : came ≠ response.bytes := by
  have awaits := h.awaits
  rw [hp] at awaits
  generalize r.session.transport.queue = queue at awaits
  cases awaits with
  | transmits hcame => exact response.ne_bytes_of_nil hcame
  | receives hn => exact h.missing hn

theorem Receiving.at_rest {wait : Wait} (h : Receiving response base came lines r)
    (hp : r.phase = .waiting wait false) : AtRest response base came r :=
  Or.inr ⟨h.missing_of_waiting hp, Or.inr ⟨wait, hp⟩⟩

theorem Receiving.read_eventually (h : Receiving response base came lines r)
    (part : came <+: response.bytes) (hp : r.phase = .ready .readLine false)
    (queue : r.session.transport.queue = []) : r.Eventually (AtRest response base came) := by
  induction hlength : r.session.transport.buffer.length using Nat.strong_induction_on
    generalizing r lines with
  | _ n ih =>
    refine .proceed (step_ready hp) fun today => ?_
    have hpart : came ++ [] <+: response.bytes := by rwa [List.append_nil]
    have hcases := h.read_cases queue hpart (t := r.session.transport) (by simp) today rfl
    rw [List.append_nil, List.append_nil, hlength] at hcases
    rcases hcases with ⟨later, hlater, hhead, hqueue, hshorter⟩ | ⟨_, quiet⟩ | ⟨hwaits, stream, hwait⟩
    · exact .proceed (step_head hhead hqueue) fun _ => ih _ hshorter hlater.reads rfl rfl rfl
    · exact .now (Or.inl quiet.lists)
    · exact .now (hwaits.at_rest hwait)

theorem Receiving.eventually (h : Receiving response base came lines r)
    (part : came <+: response.bytes) : r.Eventually (AtRest response base came) := by
  obtain ⟨s, phase⟩ := r
  obtain ⟨stream, connected⟩ := h.connected
  have awaits := h.awaits
  dsimp only at connected awaits
  generalize hq : s.transport.queue = queue at awaits
  -- With the command on its way the session waits for the network to take it.
  have writes : ∀ {t : Transport} {line : String}, t.stream = some stream → came = [] →
      Eventually (AtRest response base came) ⟨{ s with transport := t }, .ready (.writeLine line) false⟩ := by
    intro t line ht hcame
    have hmissing := response.ne_bytes_of_nil hcame
    refine .proceed (step_ready rfl) fun today => .now (Or.inr ⟨hmissing, Or.inr ?_⟩)
    refine ⟨.transmit stream (LineBuffer.encode line), ?_⟩
    simp [Transport.begin, Transport.beginWrite, ht, settle]
  cases awaits with
  | writes hcame => exact .proceed (step_head rfl hq) fun _ => writes connected hcame
  | write hcame => exact writes connected hcame
  | reads => exact .proceed (step_head rfl hq) fun _ => h.reads.read_eventually part rfl rfl
  | read => exact h.read_eventually part rfl hq
  | transmits | receives => exact .now (h.at_rest rfl)

theorem Stands.eventually (h : Stands response base came r) (part : came <+: response.bytes)
    (hp : r.phase ≠ .over) : r.Eventually (AtRest response base came) := by
  cases h with
  | receiving h => exact h.eventually part
  | told _ quiet => exact .now (Or.inl quiet.lists)
  | lost gone _ hover =>
    refine .now (Or.inr ⟨fun hall => hp (hover hall), Or.inl ?_⟩)
    rcases gone with hover' | ⟨_, stage, _⟩
    · exact absurd hover' hp
    · exact stage

theorem Stands.lists (h : Stands response base came r) :
    r.session.Lists base [] ∨ r.session.Lists base [response.entries] := by
  cases h with
  | receiving h => exact Or.inl h.lists
  | told _ quiet => exact Or.inr quiet.lists
  | lost _ quiet _ => exact Or.inl quiet.lists

/-- A session that begins a listing with nothing in store has taken no line of the answer yet. -/
theorem receiving_of_begun {p : Profile} {w : Wire} {ready asked : Runner} (response : Response)
    (matched : asked.Matches p w) (hs : ready.step? today input = some asked)
    (begun : Move.begun ⟨ready, input, asked⟩ = [.listDirectory])
    (unread : ready.session.transport.buffer = []) :
    Receiving response ready.session.news [] [] asked := by
  cases hhands : ready.hands? input with
  | none => simp [Move.begun, hhands] at begun
  | some found =>
    obtain ⟨s, request⟩ := found
    obtain ⟨rfl, loggedIn⟩ : request = .listDirectory ∧ s.stage = .loggedIn := by
      simp only [Move.begun, hhands] at begun
      split at begun
      next hready => exact ⟨List.singleton_inj.mp begun, hready.2⟩
      next => simp at begun
    obtain ⟨deferred, hsame⟩ := hands_session hhands
    have hasked : asked = { session := s.beginListing } := by
      cases step_turns hs with
      | handles hother =>
        rw [hhands] at hother
        cases hother
        simp [Session.handle, Session.navigate, loggedIn]
      | defers _ _ hother | operates _ _ hother | passes _ _ _ hother => simp [hhands] at hother
      | finishes hclose =>
        rw [hclose, hands_close] at hhands
        simp at hhands
    obtain ⟨lists, empty⟩ : asked.session.Quiet ready.session.news [] := by
      have hquiet : s.Quiet ready.session.news [] := by
        rw [hsame]
        exact ⟨⟨[], (List.append_nil _).symm, rfl⟩, unread⟩
      have hhandled := hquiet.handle .listDirectory
      have hhandle : s.handle .listDirectory = s.beginListing := by
        simp [Session.handle, Session.navigate, loggedIn]
      rw [hasked, ← hhandle]
      exact hhandled
    have unlisted : asked.session.listing = #[] := by
      rw [hasked]
      change (Session.send { s with listing := #[] } .statList).listing = #[]
      unfold Session.send Session.withTransport
      split
      next => rfl
      next => rfl
    have stage : asked.session.stage = .awaitingStat := by
      rw [hasked]
      rfl
    have hphase : asked.phase = .head := by rw [hasked]
    obtain ⟨t, phase⟩ := asked
    dsimp only at hphase lists empty unlisted stage
    subst hphase
    obtain ⟨_, rests⟩ := matched
    have hstands : (∃ stream, t.transport.stream = some stream) ∧
        Awaits [] t.transport.buffer .head t.transport.queue := by
      dsimp only at rests
      generalize t.transport.queue = queue at rests
      cases rests with
      | closed _ h => simp [h.stage] at stage
      | resolving _ h _ | dialling _ h _ => simp [h.stage] at stage
      | shaking _ h _ | ready _ h _ => simp [h] at stage
      | sending uses _ => exact ⟨⟨_, uses.carries.stream⟩, .writes rfl⟩
      | reading uses _ => exact ⟨⟨_, uses.carries.stream⟩, .reads⟩
    obtain ⟨connected, awaits⟩ := hstands
    refine ⟨lists, stage, connected, awaits, List.nil_prefix, ?_, ?_⟩
    · dsimp only
      rw [empty]
      exact ⟨rfl, rfl⟩
    · dsimp only
      rw [unlisted]
      rfl

/-- A session that begins a listing with nothing in store tells of one listing in all, and this holds
what the rows of the answer tell, in order: in either way of reading, however the answer is cut into
chunks, and whatever navigation is asked for meanwhile. Once all of the answer has been received the
session goes on to tell it by itself; before, it goes on to where it waits for the network, unless it
loses its connection. -/
theorem listing_in_full {p : Profile} {hasRoots : Bool} {earlier moves : List Move}
    {ready asked r : Runner} (response : Response) (run : Run (start p hasRoots) earlier ready)
    (hs : ready.step? today input = some asked)
    (begun : Move.begun ⟨ready, input, asked⟩ = [.listDirectory])
    (unread : ready.session.transport.buffer = []) (more : Run asked moves r)
    (calm : ∀ m ∈ moves, ∀ request, m.input = .request request → request.interrupts = false)
    (part : received moves <+: response.bytes) :
    (r.session.Lists ready.session.news [] ∨
        r.session.Lists ready.session.news [response.entries]) ∧
      (r.phase ≠ .over → r.Eventually fun later =>
        later.session.Lists ready.session.news [response.entries] ∨
          received moves ≠ response.bytes ∧
            (later.session.stage = .notConnected ∨ ∃ wait, later.phase = .waiting wait false)) := by
  obtain ⟨w, _, matched⟩ := run_matches (run.next hs)
  have hstart : Stands response ready.session.news [] asked :=
    .receiving (receiving_of_begun response matched hs begun unread)
  have hstands := run_stands hstart more calm part
  exact ⟨hstands.lists, hstands.eventually part⟩

def fileRow : Row where
  permissions := .ofChars "-rw-r-----".toList (by decide) (by decide)
  known := ⟨'-', by decide, _, rfl⟩
  links := .ofChars "3".toList (by decide) (by decide)
  group := none
  size := 531
  sizeDigits := .ofNat 531
  date := ⟨1998, 1, 29, by decide⟩
  day := .ofNat 29
  year := .ofNat 1998
  name := "a b".toList
  target := none
  gap _ := ⟨[' '], by decide, by decide, by decide⟩
  starts_sharp := ⟨'a', _, rfl, by decide⟩
  ends_sharp := ⟨"a ".toList, 'b', rfl, by decide⟩
  one_line := by decide
  no_arrow := by decide
  linked := nofun

def directoryRow : Row :=
  { fileRow with
    permissions := .ofChars "drwxr-xr-x".toList (by decide) (by decide)
    known := ⟨'d', by decide, _, rfl⟩
    size := 4096
    sizeDigits := .ofNat 4096
    date := ⟨2004, 2, 29, by decide⟩
    day := .ofNat 29
    year := .ofNat 2004
    name := "pub".toList
    starts_sharp := ⟨'p', _, rfl, by decide⟩
    ends_sharp := ⟨"pu".toList, 'b', rfl, by decide⟩
    one_line := by decide
    no_arrow := by decide
    linked := nofun }

def linkRow : Row :=
  { fileRow with
    permissions := .ofChars "lrwxrwxrwx".toList (by decide) (by decide)
    known := ⟨'l', by decide, _, rfl⟩
    group := some (.ofChars "other".toList (by decide) (by decide))
    size := 2
    sizeDigits := .ofNat 2
    name := "current".toList
    target := some "v1".toList
    starts_sharp := ⟨'c', _, rfl, by decide⟩
    ends_sharp := ⟨"curren".toList, 't', rfl, by decide⟩
    one_line := by decide
    no_arrow := by decide
    linked := fun _ h => Option.some.inj h ▸ ⟨⟨['v'], '1', rfl, by decide⟩, by decide, by decide⟩ }

/-- A link whose target is not told. -/
def bareLinkRow : Row :=
  { linkRow with
    name := "latest".toList
    target := none
    starts_sharp := ⟨'l', _, rfl, by decide⟩
    ends_sharp := ⟨"lates".toList, 't', rfl, by decide⟩
    one_line := by decide
    no_arrow := by decide
    linked := nofun }

def pipeRow : Row :=
  { fileRow with
    permissions := .ofChars "prw-r--r--".toList (by decide) (by decide)
    known := ⟨'p', by decide, _, rfl⟩
    size := 0
    sizeDigits := .ofNat 0
    name := "queue".toList
    starts_sharp := ⟨'q', _, rfl, by decide⟩
    ends_sharp := ⟨"queu".toList, 'e', rfl, by decide⟩
    one_line := by decide
    no_arrow := by decide
    linked := nofun }

/-- A row of each kind, with lines between them that name no file. -/
def mixedResponse : Response where
  parts := [(.note ⟨213, false, "Status".toList⟩ rfl (by decide) (by decide), .returnFeed),
    (.total " 5".toList (by decide), .feed), (.row fileRow, .returnFeed), (.row directoryRow, .feed),
    (.blank [] rfl (by decide), .feed), (.row linkRow, .feed), (.row bareLinkRow, .returnFeed),
    (.row pipeRow, .feed)]
  closing := ⟨213, true, "End".toList⟩
  ending := .returnFeed
  last := rfl
  favourable := Or.inl (by decide)
  worded := by decide
  one_line := by decide
  short := by decide +kernel
  closing_short := by decide +kernel

theorem listing_in_cut_chunks :
    ∃ (p : Profile) (earlier moves : List Move) (ready asked r : Runner) (today : Date),
      Run (start p true) earlier ready ∧
      ready.step? today (.request .listDirectory) = some asked ∧
      Move.begun ⟨ready, .request .listDirectory, asked⟩ = [.listDirectory] ∧
      ready.session.transport.buffer = [] ∧ Run asked moves r ∧
      (∀ m ∈ moves, ∀ request, m.input = .request request → request.interrupts = false) ∧
      received moves = mixedResponse.bytes ∧ r.phase ≠ .over ∧
      mixedResponse.bytes = Utf8.encode ("213- Status\r\ntotal 5\n-rw-r----- 3 531 Jan 29 1998 a b\r\n" ++
        "drwxr-xr-x 3 4096 Feb 29 2004 pub\n\nlrwxrwxrwx 3 other 2 Jan 29 1998 current -> v1\n" ++
        "lrwxrwxrwx 3 other 2 Jan 29 1998 latest\r\nprw-r--r-- 3 0 Jan 29 1998 queue\n213 End\r\n").toList ∧
      mixedResponse.entries = [
        { name := "a b", kind := .file, size := 531
          modified := ⟨⟨1998, 1, 29, by decide⟩, ⟨0, 0, 0, 0, by decide⟩⟩ },
        { name := "pub", kind := .directory, size := 4096
          modified := ⟨⟨2004, 2, 29, by decide⟩, ⟨0, 0, 0, 0, by decide⟩⟩ },
        { name := "current", kind := .link, size := 2
          modified := ⟨⟨1998, 1, 29, by decide⟩, ⟨0, 0, 0, 0, by decide⟩⟩ },
        { name := "latest", kind := .directory, size := 2
          modified := ⟨⟨1998, 1, 29, by decide⟩, ⟨0, 0, 0, 0, by decide⟩⟩ },
        { name := "queue", kind := .other, size := 0
          modified := ⟨⟨1998, 1, 29, by decide⟩, ⟨0, 0, 0, 0, by decide⟩⟩ }] ∧
      r.Eventually fun later => later.session.Lists ready.session.news [mixedResponse.entries] ∨
        received moves ≠ mixedResponse.bytes ∧
          (later.session.stage = .notConnected ∨ ∃ wait, later.phase = .waiting wait false) := by
  let p : Profile :=
    { host := "localhost", username := "user", password := "secret", authTls := false,
      listAfterLogin := false, strictListing := true }
  let day : Date := ⟨2024, 1, 1, by decide⟩
  let text (line : String) (h : line.toList ≠ [] ∧ '\r' ∉ line.toList ∧ '\n' ∉ line.toList) :
    Argument := ⟨line, h.1, h.2⟩
  let inputs : List Input :=
    Input.welcomed 0 "220 Ready\r\n" ++
    Input.exchanged (.user (text "user" (by decide))) "331 Password\r\n" ++
    Input.exchanged (.pass (text "secret" (by decide))) "230 Welcome\r\n" ++ [.proceed, .proceed]
  -- The answer is cut within the name of a month, and navigation is asked for before the rest comes.
  let inputs' : List Input :=
    Input.exchanged .statList "213- Status\r\ntotal 5\n-rw-r----- 3 531 Ja" ++
    [.proceed, .proceed, .proceed, .proceed, .request (.changeDirectory "/pub"),
      .told ("n 29 1998 a b\r\ndrwxr-xr-x 3 4096 Feb 29 2004 pub\n\n" ++
        "lrwxrwxrwx 3 other 2 Jan 29 1998 current -> v1\nlrwxrwxrwx 3 other 2 Jan 29 1998 latest\r\n" ++
        "prw-r--r-- 3 0 Jan 29 1998 queue\n213 End\r\n")]
  have h : ((rehearse p inputs).bind fun x => (x.2.step? day (.request .listDirectory)).bind fun asked =>
      (asked.play (inputs'.map fun input => (day, input))).map fun y =>
        (Move.begun ⟨x.2, .request .listDirectory, asked⟩, x.2.session.transport.buffer,
          y.1.all fun m => !m.ends,
          decide (received y.1 = mixedResponse.bytes), decide (y.2.phase = .over))) =
      some ([.listDirectory], [], true, true, false) := by decide +kernel
  obtain ⟨⟨earlier, ready⟩, hfirst, h⟩ := Option.bind_eq_some_iff.mp h
  obtain ⟨asked, hs, h⟩ := Option.bind_eq_some_iff.mp h
  obtain ⟨⟨moves, r⟩, hmoves, h⟩ := Option.map_eq_some_iff.mp h
  simp only [Prod.mk.injEq, decide_eq_true_eq, decide_eq_false_iff_not] at h
  obtain ⟨begun, unread, hcalm, hall, hphase⟩ := h
  have calm : ∀ m ∈ moves, ∀ request, m.input = .request request → request.interrupts = false := by
    intro m hm request hi
    have hends := List.all_eq_true.mp hcalm m hm
    simp only [Move.ends, hi, Bool.not_eq_true', Bool.or_eq_false_iff] at hends
    exact hends.1
  have hlisting := listing_in_full mixedResponse (run_of_play hfirst) hs begun unread
    (run_of_play hmoves) calm (hall ▸ List.prefix_rfl)
  exact ⟨p, earlier, moves, ready, asked, r, day, run_of_play hfirst, hs, begun, unread,
    run_of_play hmoves, calm, hall, hphase, by decide +kernel, by decide +kernel, hlisting.2 hphase⟩

end Runner

end FtpControl
