import FtpControl.Proofs.EventOrder
import FtpControl.Proofs.Dialling

namespace FtpControl

open Transport (Seeks Leads Executes Sought)

def Dial.ofAnswer? : Answer → Option Dial
  | .accepted connection => some (.accepts connection)
  | .refused message => some (.fails message)
  | .expired => some .stalls
  | _ => none

@[simp] theorem Dial.ofAnswer?_answer (dial : Dial) : ofAnswer? dial.answer = some dial := by
  cases dial <;> rfl

theorem Dial.answer_of_ofAnswer? {answer : Answer} {dial : Dial} (h : ofAnswer? answer = some dial) :
    dial.answer = answer := by
  cases answer <;> simp [ofAnswer?] at h <;> subst h <;> rfl

def Event.isLog : Event → Bool
  | .log _ => true
  | _ => false

namespace Runner

def Move.attempt? (m : Move) : Option Attempt :=
  match m.before.phase, m.input with
  | .waiting (.dial endpoint) _, .answer answer => (Dial.ofAnswer? answer).map (Attempt.mk endpoint)
  | _, _ => none

def attempts (moves : List Move) : List Attempt :=
  moves.filterMap Move.attempt?

def Move.events (m : Move) : List Event :=
  m.told.filter fun event => !event.isLog

def events (moves : List Move) : List Event :=
  moves.flatMap Move.events

/-- The input does not cut a search short. A lookup finds these addresses, whatever comes of dialling
one of them; navigation can be asked for. -/
def leavesSearch (addresses : List Endpoint) : Phase → Input → Bool
  | _, .proceed => true
  | _, .request request => !request.interrupts
  | .waiting (.lookup _ _) _, .answer answer => answer == .found addresses
  | .waiting (.dial _) _, .answer answer => (Dial.ofAnswer? answer).isSome
  | _, _ => false

def Move.searches (addresses : List Endpoint) (m : Move) : Bool :=
  m.before.session.connecting && leavesSearch addresses m.before.phase m.input

/-- Where the session stands in a search: the operation in hand has been taken from the queue. -/
inductive Searches (target : Target) (candidates : List Endpoint) (refusals : List Refusal)
    (s : Session) : Phase → Prop
  | head : Seeks target candidates refusals s.transport none →
      Searches target candidates refusals s .head
  | ready {t op} : Seeks target candidates refusals t none → t.next? = some (op, s.transport) →
      Searches target candidates refusals s (.ready op false)
  | waiting {wait} : Seeks target candidates refusals s.transport (some wait) →
      Searches target candidates refusals s (.waiting wait false)

variable {target : Target} {candidates : List Endpoint} {r r' : Runner} {today : Date} {input : Input}

/-- The search goes on; so far this was dialled, and this was told. -/
def SearchGoesOn (target : Target) (candidates : List Endpoint) (attempts : List Attempt)
    (events : List Event) (r : Runner) : Prop :=
  r.session.connecting = true ∧ ∃ refusals, Searches target candidates refusals r.session r.phase ∧
    attempts = refusals.map Refusal.attempt ∧ events = refusals.map Refusal.event

def SearchEnded (target : Target) (candidates : List Endpoint) (attempts : List Attempt)
    (events : List Event) (r : Runner) : Prop :=
  r.session.connecting = false ∧ ∃ refusals told ending,
    Search target.host target.family candidates refusals attempts told ending ∧
      events = refusals.map Refusal.event ++ [ending.event] ∧
      r.session.transport = { target.transport with
        stream := ending.stream?
        queue := ending.stream?.toList.map fun _ => .readLine }

def SearchStands (target : Target) (candidates : List Endpoint) (attempts : List Attempt)
    (events : List Event) (r : Runner) : Prop :=
  SearchGoesOn target candidates attempts events r ∨ SearchEnded target candidates attempts events r

/-- What an answer leads to is told to the owner, and the session goes by it. -/
theorem settle_leads (today : Date) {s : Session} {refusals : List Refusal} {dialled : List Attempt}
    {x : Transport × Progress} (connecting : s.connecting = true)
    (leads : Leads target candidates refusals dialled x) :
    ∃ told, (settle today s false x).session.news = s.news ++ told ∧
      SearchStands target candidates (refusals.map Refusal.attempt ++ dialled)
        (refusals.map Refusal.event ++ told.filter fun event => !event.isLog)
        (settle today s false x) := by
  cases leads with
  | nowhere hc =>
    have told := List.append_assoc s.news
      [.log ("Connection error: " ++ Search.noAddress target.host target.family)]
      [.fatal (Search.noAddress target.host target.family)]
    exact ⟨_, told, Or.inr ⟨rfl, _, _, _, .nowhere hc, rfl, rfl⟩⟩
  | chosen seeks =>
    exact ⟨[], (List.append_nil _).symm, Or.inl ⟨connecting, [], .head seeks, rfl, rfl⟩⟩
  | refused last seeks =>
    have told := List.append_assoc s.news [.log ("Connection error: " ++ last.text)] [last.event]
    refine ⟨_, told, Or.inl ⟨connecting, refusals ++ [last], .head seeks, ?_, ?_⟩⟩
    · rw [List.map_append]
      rfl
    · rw [List.map_append]
      rfl
  | exhausted last hc =>
    have told : s.news ++ [.log ("Connection error: " ++ last.text)] ++ [last.event] ++
        [.log "Connection error: Connection failed."] ++ [.fatal "Connection failed."] =
        s.news ++ [.log ("Connection error: " ++ last.text), last.event,
          .log "Connection error: Connection failed.", .fatal "Connection failed."] := by
      simp
    refine ⟨_, told, Or.inr ⟨rfl, _, _, _, .exhausted refusals last hc, ?_, rfl⟩⟩
    rw [List.map_append, List.append_assoc]
    rfl
  | accepted connection hc =>
    have told := List.append_assoc s.news [.log "Connected."] [.connected]
    exact ⟨_, told, Or.inr ⟨rfl, _, _, _, .accepted refusals _ connection _ hc, rfl, rfl⟩⟩
  | stalled hc =>
    have told := List.append_assoc s.news [.log ("Connection error: " ++ "Control stream timed out.")]
      [.fatal "Control stream timed out."]
    exact ⟨_, told, Or.inr ⟨rfl, _, _, _, .stalled refusals _ _ hc, rfl, rfl⟩⟩

variable {addresses : List Endpoint} {attempted : List Attempt} {seen : List Event}

theorem SearchGoesOn.silent (h : SearchGoesOn target candidates attempted seen r')
    (hn : r'.session.news = r.session.news) (hattempt : Move.attempt? ⟨r, input, r'⟩ = none) :
    SearchGoesOn target candidates (attempted ++ (Move.attempt? ⟨r, input, r'⟩).toList)
      (seen ++ Move.events ⟨r, input, r'⟩) r' := by
  have htold : Move.told ⟨r, input, r'⟩ = [] := told_eq (hn.trans (List.append_nil _).symm)
  have hevents : Move.events ⟨r, input, r'⟩ = [] := by rw [Move.events, htold, List.filter_nil]
  rwa [hattempt, hevents, Option.toList_none, List.append_nil, List.append_nil]

theorem interrupt_navigation {request : Request} (hi : request.interrupts = false) :
    r.interrupt false request =
      { r with session := { r.session with deferred := r.session.deferred ++ [request] } } := by
  simp [interrupt, hi]

theorem SearchGoesOn.deferred (h : SearchGoesOn target candidates attempted seen r)
    (deferred : List Request) :
    SearchGoesOn target candidates attempted seen { r with session := { r.session with deferred } } := by
  obtain ⟨connecting, refusals, stands, hattempts, hevents⟩ := h
  refine ⟨connecting, refusals, ?_, hattempts, hevents⟩
  obtain ⟨s, phase⟩ := r
  cases stands with
  | head seeks => exact .head seeks
  | ready seeks hnext => exact .ready seeks hnext
  | waiting seeks => exact .waiting seeks

/-- In each step of a search the session goes on with it, or comes to its end. -/
theorem step_searches (hs : r.step? today input = some r')
    (h : SearchGoesOn target (target.candidates addresses) attempted seen r)
    (calm : leavesSearch addresses r.phase input = true) :
    SearchStands target (target.candidates addresses)
      (attempted ++ (Move.attempt? ⟨r, input, r'⟩).toList) (seen ++ Move.events ⟨r, input, r'⟩) r' := by
  have goes := h
  obtain ⟨s, phase⟩ := r
  obtain ⟨connecting, refusals, stands, hattempts, hevents⟩ := h
  -- Navigation is put off, and the operation in hand stays as it is.
  have asked : ∀ {request}, request.interrupts = false →
      r' = interrupt ⟨s, phase⟩ false request →
      SearchGoesOn target (target.candidates addresses)
        (attempted ++ (Move.attempt? ⟨⟨s, phase⟩, .request request, r'⟩).toList)
        (seen ++ Move.events ⟨⟨s, phase⟩, .request request, r'⟩) r' := by
    rintro request hi rfl
    rw [interrupt_navigation hi]
    exact (goes.deferred _).silent rfl (by simp [Move.attempt?])
  -- An answer ends the operation: all that is told and dialled is told and dialled there.
  have answered : ∀ {x dialled}, settle today s false x = r' →
      Leads target (target.candidates addresses) refusals dialled x →
      (Move.attempt? ⟨⟨s, phase⟩, input, r'⟩).toList = dialled →
      SearchStands target (target.candidates addresses)
        (attempted ++ (Move.attempt? ⟨⟨s, phase⟩, input, r'⟩).toList)
        (seen ++ Move.events ⟨⟨s, phase⟩, input, r'⟩) r' := by
    rintro x dialled rfl leads hdialled
    obtain ⟨told, hn, search⟩ := settle_leads today connecting leads
    rw [hdialled, Move.events, told_eq hn, hattempts, hevents]
    exact search
  cases stands with
  | head seeks =>
    cases input with
    | proceed =>
      obtain ⟨op, next, _, _, hnext, _, _⟩ := seeks.begins
      obtain rfl : r' = ⟨{ s with transport := next }, .ready op false⟩ := by
        simpa [step?, atHead, hnext] using hs.symm
      exact Or.inl (SearchGoesOn.silent
        ⟨connecting, refusals, .ready seeks hnext, hattempts, hevents⟩ rfl rfl)
    | _ => simp [step?] at hs
  | @ready t op seeks hnext =>
    cases input with
    | proceed =>
      obtain ⟨op', next, later, wait, hnext', hbegin, seeks'⟩ := seeks.begins
      obtain ⟨rfl, rfl⟩ := Prod.mk.inj (Option.some.inj (hnext.symm.trans hnext'))
      obtain rfl : r' = ⟨{ s with transport := later }, .waiting wait false⟩ := by
        simpa [step?, hbegin, settle] using hs.symm
      exact Or.inl (SearchGoesOn.silent
        ⟨connecting, refusals, .waiting seeks', hattempts, hevents⟩ rfl rfl)
    | request request =>
      have hi : request.interrupts = false := by simpa [leavesSearch] using calm
      exact Or.inl (asked hi (Option.some.inj hs).symm)
    | answer => simp [step?] at hs
    | close => simp [leavesSearch] at calm
  | @waiting wait seeks =>
    cases input with
    | proceed => simp [step?] at hs
    | request request =>
      have hi : request.interrupts = false := by simpa [leavesSearch] using calm
      exact Or.inl (asked hi (Option.some.inj hs).symm)
    | answer answer =>
      obtain ⟨x, hx, hr⟩ := Option.map_eq_some_iff.mp hs
      rcases seeks.wait_cases with ⟨host, port, rfl⟩ | ⟨endpoint, rfl⟩
      · obtain rfl : answer = .found addresses := by simpa [leavesSearch] using calm
        have leads := seeks.finds
        rw [Option.some.inj hx] at leads
        exact answered hr leads rfl
      · obtain ⟨dial, hdial⟩ := Option.isSome_iff_exists.mp calm
        obtain ⟨y, hy, leads⟩ := seeks.dials dial
        rw [Dial.answer_of_ofAnswer? hdial] at hy
        obtain rfl := Option.some.inj (hy.symm.trans hx)
        exact answered hr leads (by simp [Move.attempt?, hdial])
    | close => simp [leavesSearch] at calm

theorem attempts_append (moves : List Move) (m : Move) :
    attempts (moves ++ [m]) = attempts moves ++ m.attempt?.toList := by
  cases h : m.attempt? <;> simp [attempts, h]

theorem events_append (moves : List Move) (m : Move) :
    events (moves ++ [m]) = events moves ++ m.events := by
  simp [events]

def destination (r : Runner) : Target where
  trust := r.session.transport.trust
  host := r.session.profile.host
  port := r.session.profile.port
  family := r.session.profile.family

theorem search_of_connect (candidates : List Endpoint)
    (hs : r.step? today (.request .connect) = some r') :
    SearchGoesOn r.destination candidates [] [] r' := by
  rw [step_interrupting rfl hs]
  exact ⟨rfl, [], .head .asked, rfl, rfl⟩

theorem run_searches {opened last : Runner} {moves : List Move}
    (start : SearchGoesOn target (target.candidates addresses) [] [] opened)
    (run : Run opened moves last) (calm : ∀ m ∈ moves, m.searches addresses = true) :
    SearchStands target (target.candidates addresses) (attempts moves) (events moves) last := by
  induction run with
  | start => exact Or.inl start
  | @next moves r today input r' _ hs ih =>
    have hlast := calm _ (List.mem_append_right _ (List.mem_singleton_self _))
    obtain ⟨connecting, leaves⟩ : r.session.connecting = true ∧
        leavesSearch addresses r.phase input = true := by
      simpa [Move.searches] using hlast
    rw [attempts_append, events_append]
    rcases ih fun m hm => calm m (List.mem_append_left _ hm) with goes | ⟨idle, _⟩
    · exact step_searches hs goes leaves
    · simp [idle] at connecting

/-- With each address behaving as the plan tells, the search can be brought to its end. -/
def Reaches (addresses : List Endpoint) (plan attempted : List Attempt) (r : Runner) : Prop :=
  ∃ moves last, Run r moves last ∧ (∀ m ∈ moves, m.searches addresses = true) ∧
    attempted ++ attempts moves <+: plan ∧ last.session.connecting = false

variable {plan : List Attempt}

theorem Reaches.now (idle : r.session.connecting = false) (h : attempted <+: plan) :
    Reaches addresses plan attempted r :=
  ⟨[], r, .start, by simp, by simpa [attempts] using h, idle⟩

theorem Reaches.step (hs : r.step? today input = some r')
    (hm : Move.searches addresses ⟨r, input, r'⟩ = true)
    (h : Reaches addresses plan (attempted ++ (Move.attempt? ⟨r, input, r'⟩).toList) r') :
    Reaches addresses plan attempted r := by
  obtain ⟨moves, last, run, calm, hplan, idle⟩ := h
  refine ⟨⟨r, input, r'⟩ :: moves, last, run.first hs rfl, ?_, ?_, idle⟩
  · simpa [hm] using calm
  · cases hattempt : Move.attempt? ⟨r, input, r'⟩ <;> simpa [attempts, hattempt] using hplan

theorem Reaches.proceed (today : Date) (connecting : r.session.connecting = true)
    (hs : r.step? today .proceed = some r') (h : Reaches addresses plan attempted r') :
    Reaches addresses plan attempted r := by
  have hm : Move.searches addresses ⟨r, .proceed, r'⟩ = true := by
    simp [Move.searches, connecting, leavesSearch]
  exact .step hs hm (by simpa [Move.attempt?] using h)

section

variable {s : Session} {endpoint : Endpoint} {rest : List Endpoint} {ahead : List Attempt} (today)
  (connecting : s.connecting = true)

include today connecting

theorem reaches_trying (h : Reaches addresses plan attempted
      ⟨{ s with transport := target.dialling rest }, .waiting (.dial endpoint) false⟩) :
    Reaches addresses plan attempted
      ⟨{ s with transport := target.trying (endpoint :: rest) }, .head⟩ := by
  have turns : step? today ⟨{ s with transport := target.trying (endpoint :: rest) }, .head⟩ .proceed =
      some ⟨{ s with transport := target.dialling (endpoint :: rest) }, .ready .connect false⟩ := rfl
  have dials : step? today ⟨{ s with transport := target.dialling (endpoint :: rest) },
      .ready .connect false⟩ .proceed =
      some ⟨{ s with transport := target.dialling rest }, .waiting (.dial endpoint) false⟩ := rfl
  exact .proceed today connecting turns (.proceed today connecting dials h)

/-- One address is dialled after the other, each as the plan tells, until one does not fail. -/
theorem reaches_dialling (hplan : attempted ++ ahead = plan)
    (hahead : ahead.map Attempt.endpoint = endpoint :: rest) :
    Reaches addresses plan attempted
      ⟨{ s with transport := target.dialling rest }, .waiting (.dial endpoint) false⟩ := by
  -- On what is left of the plan: an address that fails passes its turn to the next attempt there.
  induction ahead generalizing s attempted endpoint rest with
  | nil => simp at hahead
  | cons attempt ahead ih =>
    obtain ⟨dialled, dial⟩ := attempt
    obtain ⟨rfl, hrest⟩ : dialled = endpoint ∧ ahead.map Attempt.endpoint = rest := by
      simpa using hahead
    have hplan' : attempted ++ [⟨dialled, dial⟩] ++ ahead = plan := by simpa using hplan
    have hprefix : attempted ++ [⟨dialled, dial⟩] <+: plan := ⟨ahead, hplan'⟩
    have answers : ∀ {outcome : Dial} {r'}, Move.searches addresses
        ⟨⟨{ s with transport := target.dialling rest }, .waiting (.dial dialled) false⟩,
          .answer outcome.answer, r'⟩ = true := by
      simp [Move.searches, connecting, leavesSearch]
    cases dial with
    | accepts connection =>
      have ends : step? today ⟨{ s with transport := target.dialling rest },
          .waiting (.dial dialled) false⟩ (.answer (Dial.accepts connection).answer) = some _ := rfl
      exact .step ends answers (.now rfl hprefix)
    | stalls =>
      have ends : step? today ⟨{ s with transport := target.dialling rest },
          .waiting (.dial dialled) false⟩ (.answer Dial.stalls.answer) = some _ := rfl
      exact .step ends answers (.now rfl hprefix)
    | fails message =>
      cases rest with
      | nil =>
        have ends : step? today ⟨{ s with transport := target.dialling [] },
            .waiting (.dial dialled) false⟩ (.answer (Dial.fails message).answer) = some _ := rfl
        exact .step ends answers (.now rfl hprefix)
      | cons following rest =>
        let told : Session := { s with
          news := s.news ++ [.log ("Connection error: " ++ (Refusal.mk dialled message).text)] ++
            [(Refusal.mk dialled message).event] }
        have goesOn : step? today ⟨{ s with transport := target.dialling (following :: rest) },
            .waiting (.dial dialled) false⟩ (.answer (Dial.fails message).answer) =
            some ⟨{ told with transport := target.trying (following :: rest) }, .head⟩ := rfl
        have dialling : Reaches addresses plan (attempted ++ [⟨dialled, .fails message⟩])
            ⟨{ told with transport := target.dialling rest }, .waiting (.dial following) false⟩ :=
          ih connecting hplan' hrest
        exact .step goesOn answers (reaches_trying today connecting dialling)

theorem reaches_resolving (hplan : plan.map Attempt.endpoint = target.candidates addresses) :
    Reaches addresses plan []
      ⟨{ s with transport := target.transport }, .waiting (.lookup target.host target.port) false⟩ := by
  have found : step? today
      ⟨{ s with transport := target.transport }, .waiting (.lookup target.host target.port) false⟩
      (.answer (.found addresses)) = some (settle today { s with transport := target.transport } false
        (target.transport.resolved addresses)) := rfl
  have answers : ∀ {r'}, Move.searches addresses
      ⟨⟨{ s with transport := target.transport }, .waiting (.lookup target.host target.port) false⟩,
        .answer (.found addresses), r'⟩ = true := by
    simp [Move.searches, connecting, leavesSearch]
  rw [Transport.resolved_eq] at found
  cases hc : target.candidates addresses with
  | nil =>
    rw [hc] at found
    exact .step found answers (.now rfl List.nil_prefix)
  | cons endpoint rest =>
    rw [hc] at found
    have dialling : Reaches addresses plan []
        ⟨{ s with transport := target.dialling rest }, .waiting (.dial endpoint) false⟩ :=
      reaches_dialling today connecting (List.nil_append plan) (hplan.trans hc)
    exact .step found answers (reaches_trying today connecting dialling)

end

theorem with_transport {s : Session} {t : Transport} (h : s.transport = t) :
    { s with transport := t } = s := by
  rw [← h]

/-- Wherever a search stands, it can be brought to its end with the plan for the addresses left. -/
theorem SearchGoesOn.reaches (today : Date)
    (h : SearchGoesOn target (target.candidates addresses) attempted seen r)
    (hplan : plan.map Attempt.endpoint = target.candidates addresses) (part : attempted <+: plan) :
    Reaches addresses plan attempted r := by
  obtain ⟨s, phase⟩ := r
  obtain ⟨connecting, refusals, stands, rfl, hevents⟩ := h
  have dialling : ∀ {endpoint rest}, target.candidates addresses =
      refusals.map Refusal.endpoint ++ endpoint :: rest →
      Reaches addresses plan (refusals.map Refusal.attempt)
        ⟨{ s with transport := target.dialling rest }, .waiting (.dial endpoint) false⟩ := by
    intro endpoint rest hc
    obtain ⟨ahead, hahead⟩ := part
    -- The attempts so far are the beginning of the plan, so the rest of it is for the addresses left.
    have hendpoints : (refusals.map Refusal.attempt).map Attempt.endpoint =
        refusals.map Refusal.endpoint := by
      rw [List.map_map]
      rfl
    rw [← hahead, List.map_append, hendpoints, hc] at hplan
    exact reaches_dialling today connecting hahead (List.append_cancel_left hplan)
  have resolving := reaches_resolving today connecting hplan
  cases stands with
  | head seeks =>
    generalize ht : s.transport = t at seeks
    rw [← with_transport ht]
    cases seeks with
    | asked =>
      have turns : step? today ⟨{ s with transport := target.asking }, .head⟩ .proceed =
          some ⟨{ s with transport := target.transport }, .ready .resolve false⟩ := rfl
      exact .proceed today connecting turns (.proceed today connecting rfl resolving)
    | next hc => exact reaches_trying today connecting (dialling hc)
  | ready seeks hnext =>
    cases seeks with
    | asked =>
      obtain ⟨rfl, ht⟩ := Prod.mk.inj (Option.some.inj hnext)
      have same : { s with transport := target.transport } = s := with_transport ht.symm
      rw [← same]
      exact .proceed today connecting rfl resolving
    | @next _ endpoint rest hc =>
      obtain ⟨rfl, ht⟩ := Prod.mk.inj (Option.some.inj hnext)
      have same : { s with transport := target.dialling (endpoint :: rest) } = s :=
        with_transport ht.symm
      rw [← same]
      exact .proceed today connecting rfl (dialling hc)
  | waiting seeks =>
    generalize ht : s.transport = t at seeks
    rw [← with_transport ht]
    cases seeks with
    | resolving => exact resolving
    | dialling hc => exact dialling hc

/-- The addresses of the requested family are dialled in their order until one of them does not fail;
each that fails is told of, and then that the session is connected or why it is not. So it is when the
operations of a transport are carried out one after the other, and in a session that is not interrupted. -/
theorem dials_in_order (addresses : List Endpoint) :
    (∀ (t : Transport) (host : String) (port : UInt16) (family : Address.Family),
      let target : Target := ⟨t.trust, host, port, family⟩
      (∀ attempts told now, Executes addresses (t.connect host port family) attempts told now none →
        now.queue = [] → Sought target (target.candidates addresses) attempts told now none) ∧
      ∀ plan : List Attempt, plan.map Attempt.endpoint = target.candidates addresses →
        ∃ attempts told now, Executes addresses (t.connect host port family) attempts told now none ∧
          now.queue = [] ∧ attempts <+: plan) ∧
    ∀ (today : Date) (r opened : Runner), r.step? today (.request .connect) = some opened →
      let candidates := r.destination.candidates addresses
      ∀ moves last, Run opened moves last → (∀ m ∈ moves, m.searches addresses = true) →
        (last.session.connecting = false →
          SearchEnded r.destination candidates (attempts moves) (events moves) last) ∧
        (last.session.connecting = true → ∀ plan : List Attempt,
          plan.map Attempt.endpoint = candidates → attempts moves <+: plan →
          Reaches addresses plan (attempts moves) last) := by
  constructor
  · intro t host port family target
    constructor
    · intro attempts told now executes queue
      have search := @Executes.seeks target _ _ _ _ _ executes
      rcases search with ⟨refusals, seeks, _⟩ | sought
      · obtain ⟨op, next, _, _, hnext, _⟩ := seeks.begins
        simp [Transport.next?, queue] at hnext
      · exact sought
    · intro plan hplan
      exact Transport.exists_executes hplan
  · intro today r opened connect candidates moves last run calm
    have start := search_of_connect candidates connect
    have search := run_searches start run calm
    constructor
    · intro idle
      rcases search with ⟨connecting, _⟩ | ended
      · simp [idle] at connecting
      · exact ended
    · intro connecting plan hplan part
      rcases search with goesOn | ⟨idle, _⟩
      · exact goesOn.reaches today hplan part
      · simp [idle] at connecting

/-- The first address of the family refuses the connection, and the second accepts it. -/
theorem dials_second_address :
    ∃ a b c : Endpoint, ∃ r : Runner, ∃ today opened moves last, a.address.family = .ipv6 ∧
      r.step? today (.request .connect) = some opened ∧ Run opened moves last ∧
      (∀ m ∈ moves, m.searches [a, b, c] = true) ∧
      attempts moves = [⟨b, .fails "refused"⟩, ⟨c, .accepts 7⟩] ∧
      events moves = [.error "Connection error: 10.0.0.1:21: refused", .connected] ∧
      SearchEnded r.destination [b, c] (attempts moves) (events moves) last ∧
      Reaches [a, b, c] [⟨b, .fails "refused"⟩, ⟨c, .stalls⟩] [] opened ∧
      ∃ attempts told now,
        Executes [a, b, c] (r.session.transport.connect "localhost" 21 .ipv4) attempts told now none ∧
        attempts <+: [⟨b, .fails "refused"⟩, ⟨c, .stalls⟩] ∧
        Sought r.destination [b, c] attempts told now none := by
  let a : Endpoint := ⟨.v6 ⟨#[0, 0, 0, 0, 0, 0, 0, 1], rfl⟩, 21⟩
  let b : Endpoint := ⟨.v4 ⟨#[10, 0, 0, 1], rfl⟩, 21⟩
  let c : Endpoint := ⟨.v4 ⟨#[10, 0, 0, 2], rfl⟩, 21⟩
  let p : Profile := { host := "localhost", username := "user", password := "secret" }
  let r : Runner := { start p true with phase := .idle }
  let day : Date := ⟨2024, 1, 1, by decide⟩
  let inputs : List Input :=
    [.proceed, .request .listDirectory, .proceed, .answer (.found [a, b, c]), .proceed, .proceed,
      .answer (.refused "refused"), .proceed, .proceed, .answer (.accepted 7)]
  let opened : Runner := { session := r.session.beginConnect }
  have connect : r.step? day (.request .connect) = some opened := rfl
  have h : (opened.play (inputs.map fun input => (day, input))).map (fun x =>
        (x.1.all fun m => m.searches [a, b, c], attempts x.1, events x.1, x.2.session.connecting)) =
      some (true, [⟨b, .fails "refused"⟩, ⟨c, .accepts 7⟩],
        [.error "Connection error: 10.0.0.1:21: refused", .connected], false) := by decide +kernel
  obtain ⟨⟨moves, last⟩, hmoves, h⟩ := Option.map_eq_some_iff.mp h
  simp only [Prod.mk.injEq] at h
  obtain ⟨hall, hattempts, hevents, idle⟩ := h
  have run := run_of_play hmoves
  have calm : ∀ m ∈ moves, m.searches [a, b, c] = true := by simpa using hall
  have hcandidates : r.destination.candidates [a, b, c] = [b, c] := by decide +kernel
  obtain ⟨transport, session⟩ := dials_in_order [a, b, c]
  have ended := (session day r opened connect moves last run calm).1 idle
  have reaches := (session day r opened connect [] opened .start (by simp)).2 rfl
    [⟨b, .fails "refused"⟩, ⟨c, .stalls⟩] hcandidates.symm List.nil_prefix
  obtain ⟨sought, executes⟩ := transport r.session.transport "localhost" 21 .ipv4
  obtain ⟨attempts, told, now, hexecutes, queue, hplan⟩ :=
    executes [⟨b, .fails "refused"⟩, ⟨c, .stalls⟩] hcandidates.symm
  have hsought := sought attempts told now hexecutes queue
  rw [hcandidates] at ended
  exact ⟨a, b, c, r, day, opened, moves, last, rfl, connect, run, calm, hattempts, hevents, ended,
    reaches, attempts, told, now, hexecutes, hplan, hcandidates ▸ hsought⟩

end Runner

end FtpControl
