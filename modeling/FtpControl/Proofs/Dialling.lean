import FtpControl.Proofs.Framing

namespace FtpControl

inductive Dial where
  | accepts (connection : Nat)
  | fails (message : String)
  /-- Nothing, until the watchdog's time is over. -/
  | stalls
  deriving DecidableEq, Repr

def Dial.answer : Dial → Answer
  | .accepts connection => .accepted connection
  | .fails message => .refused message
  | .stalls => .expired

structure Attempt where
  endpoint : Endpoint
  dial : Dial
  deriving DecidableEq, Repr

structure Refusal where
  endpoint : Endpoint
  message : String
  deriving DecidableEq, Repr

namespace Refusal

def attempt (refusal : Refusal) : Attempt :=
  ⟨refusal.endpoint, .fails refusal.message⟩

def text (refusal : Refusal) : String :=
  refusal.endpoint.text ++ ": " ++ refusal.message

def notice (exhausted : Bool) (refusal : Refusal) : Notice :=
  .endpointFailed refusal.text exhausted

def event (refusal : Refusal) : Event :=
  .error ("Connection error: " ++ refusal.text)

end Refusal

inductive Search.End where
  | connected (connection : Nat)
  | failed (message : String)
  deriving DecidableEq, Repr

def Search.End.stream? : Search.End → Option Stream
  | .connected connection => some ⟨connection, false⟩
  | .failed _ => none

def Search.End.event : Search.End → Event
  | .connected _ => .connected
  | .failed message => .fatal message

def Search.noAddress (host : String) (family : Address.Family) : String :=
  "No " ++ family.name ++ " address found for " ++ host ++ "."

/-- The courses that a search among these addresses can take: the addresses that have failed, all that
were dialled, what the transport has told, and the end. -/
inductive Search (host : String) (family : Address.Family) (candidates : List Endpoint) :
    List Refusal → List Attempt → List Notice → Search.End → Prop
  | nowhere : candidates = [] → Search host family candidates [] []
      [.error (Search.noAddress host family) true] (.failed (Search.noAddress host family))
  | exhausted (refusals : List Refusal) (last : Refusal) :
      candidates = refusals.map Refusal.endpoint ++ [last.endpoint] →
      Search host family candidates (refusals ++ [last])
        (refusals.map Refusal.attempt ++ [last.attempt])
        (refusals.map (Refusal.notice false) ++ [last.notice true]) (.failed "Connection failed.")
  | accepted (refusals : List Refusal) (endpoint : Endpoint) (connection : Nat) (rest : List Endpoint) :
      candidates = refusals.map Refusal.endpoint ++ endpoint :: rest →
      Search host family candidates refusals
        (refusals.map Refusal.attempt ++ [⟨endpoint, .accepts connection⟩])
        (refusals.map (Refusal.notice false) ++ [.connected]) (.connected connection)
  | stalled (refusals : List Refusal) (endpoint : Endpoint) (rest : List Endpoint) :
      candidates = refusals.map Refusal.endpoint ++ endpoint :: rest →
      Search host family candidates refusals (refusals.map Refusal.attempt ++ [⟨endpoint, .stalls⟩])
        (refusals.map (Refusal.notice false) ++ [.error "Control stream timed out." true])
        (.failed "Control stream timed out.")

structure Target where
  trust : Trust
  host : String
  port : UInt16
  family : Address.Family
  deriving DecidableEq, Repr

namespace Target

def transport (target : Target) : Transport where
  trust := target.trust
  host := target.host
  port := target.port
  family := target.family

def asking (target : Target) : Transport :=
  { target.transport with queue := [.resolve] }

def trying (target : Target) (candidates : List Endpoint) : Transport :=
  { target.transport with candidates, queue := [.connect] }

def dialling (target : Target) (rest : List Endpoint) : Transport :=
  { target.transport with candidates := rest }

/-- Those among the addresses that a lookup finds which are to be dialled. -/
def candidates (target : Target) (addresses : List Endpoint) : List Endpoint :=
  addresses.filter fun endpoint => endpoint.address.family == target.family

end Target

namespace Transport

/-- The queued operations of a transport are carried out one after the other. A lookup finds these
addresses; what was dialled, and what has been told, is counted. -/
inductive Executes (addresses : List Endpoint) (first : Transport) :
    List Attempt → List Notice → Transport → Option Wait → Prop
  | start : Executes addresses first [] [] first none
  | begins {attempts told now later op next progress} :
      Executes addresses first attempts told now none → now.next? = some (op, next) →
      next.begin op = (later, progress) →
      Executes addresses first attempts (told ++ progress.told) later progress.wait?
  | finds {attempts told now host port later progress} :
      Executes addresses first attempts told now (some (.lookup host port)) →
      now.resume (.lookup host port) (.found addresses) = some (later, progress) →
      Executes addresses first attempts (told ++ progress.told) later progress.wait?
  | dials {attempts told now endpoint later progress} (dial : Dial) :
      Executes addresses first attempts told now (some (.dial endpoint)) →
      now.resume (.dial endpoint) dial.answer = some (later, progress) →
      Executes addresses first (attempts ++ [⟨endpoint, dial⟩]) (told ++ progress.told) later
        progress.wait?

/-- Where a search stands among its candidates before it ends: these addresses have failed. -/
inductive Seeks (target : Target) (candidates : List Endpoint) :
    List Refusal → Transport → Option Wait → Prop
  | asked : Seeks target candidates [] target.asking none
  | resolving : Seeks target candidates [] target.transport (some (.lookup target.host target.port))
  | next {refusals endpoint rest} : candidates = refusals.map Refusal.endpoint ++ endpoint :: rest →
      Seeks target candidates refusals (target.trying (endpoint :: rest)) none
  | dialling {refusals endpoint rest} :
      candidates = refusals.map Refusal.endpoint ++ endpoint :: rest →
      Seeks target candidates refusals (target.dialling rest) (some (.dial endpoint))

/-- What the answer to a wait leads to, and what was dialled for it. -/
inductive Leads (target : Target) (candidates : List Endpoint) :
    List Refusal → List Attempt → Transport × Progress → Prop
  | nowhere : candidates = [] → Leads target candidates [] []
      (target.transport.finish (.error (Search.noAddress target.host target.family) true))
  | chosen {later} : Seeks target candidates [] later none →
      Leads target candidates [] [] (later, .done none)
  | refused {refusals later} (last : Refusal) :
      Seeks target candidates (refusals ++ [last]) later none →
      Leads target candidates refusals [last.attempt] (later.finish (last.notice false))
  | exhausted {refusals} (last : Refusal) :
      candidates = refusals.map Refusal.endpoint ++ [last.endpoint] →
      Leads target candidates refusals [last.attempt] (target.transport.finish (last.notice true))
  | accepted {refusals endpoint rest} (connection : Nat) :
      candidates = refusals.map Refusal.endpoint ++ endpoint :: rest →
      Leads target candidates refusals [⟨endpoint, .accepts connection⟩]
        ({ target.transport with stream := some ⟨connection, false⟩ }.finish .connected)
  | stalled {refusals endpoint rest} :
      candidates = refusals.map Refusal.endpoint ++ endpoint :: rest →
      Leads target candidates refusals [⟨endpoint, .stalls⟩]
        (target.transport.finish (.error "Control stream timed out." true))

variable {target : Target} {now later : Transport} {addresses candidates : List Endpoint}
  {refusals : List Refusal} {attempts plan : List Attempt} {told : List Notice}

theorem Seeks.begins (h : Seeks target candidates refusals now none) :
    ∃ op next later wait, now.next? = some (op, next) ∧ next.begin op = (later, .blocked wait) ∧
      Seeks target candidates refusals later (some wait) := by
  cases h with
  | asked => exact ⟨_, _, _, _, rfl, rfl, .resolving⟩
  | next hc => exact ⟨_, _, _, _, rfl, rfl, .dialling hc⟩

theorem Seeks.wait_cases {wait : Wait} (h : Seeks target candidates refusals now (some wait)) :
    (∃ host port, wait = .lookup host port) ∨ ∃ endpoint, wait = .dial endpoint := by
  cases h with
  | resolving => exact Or.inl ⟨_, _, rfl⟩
  | dialling hc => exact Or.inr ⟨_, rfl⟩

theorem resolved_eq (target : Target) (addresses : List Endpoint) :
    target.transport.resolved addresses = if (target.candidates addresses).isEmpty then
      target.transport.finish (.error (Search.noAddress target.host target.family) true)
    else (target.trying (target.candidates addresses), .done none) := rfl

theorem Seeks.finds {host : String} {port : UInt16}
    (h : Seeks target (target.candidates addresses) refusals now (some (.lookup host port))) :
    Leads target (target.candidates addresses) refusals [] (now.resolved addresses) := by
  cases h with
  | resolving =>
    rw [resolved_eq]
    cases target.candidates addresses with
    | nil => exact .nowhere rfl
    | cons endpoint rest => exact .chosen (.next rfl)

theorem Seeks.dials {endpoint : Endpoint}
    (h : Seeks target candidates refusals now (some (.dial endpoint))) (dial : Dial) :
    ∃ x, now.resume (.dial endpoint) dial.answer = some x ∧
      Leads target candidates refusals [⟨endpoint, dial⟩] x := by
  cases h with
  | @dialling _ _ rest hc =>
    cases dial with
    | accepts connection => exact ⟨_, rfl, .accepted connection hc⟩
    | stalls => exact ⟨_, rfl, .stalled hc⟩
    | fails message =>
      refine ⟨_, rfl, ?_⟩
      cases rest with
      | nil => exact .exhausted ⟨endpoint, message⟩ hc
      | cons following rest => exact .refused ⟨endpoint, message⟩ (.next (by simpa using hc))

/-- Where a search has ended, with all that it came to. -/
def Sought (target : Target) (candidates : List Endpoint) (attempts : List Attempt) (told : List Notice)
    (now : Transport) (wait : Option Wait) : Prop :=
  ∃ refusals ending, Search target.host target.family candidates refusals attempts told ending ∧
    now = { target.transport with stream := ending.stream? } ∧ wait = none

/-- A search that is going on. -/
def Seeking (target : Target) (candidates : List Endpoint) (attempts : List Attempt)
    (told : List Notice) (now : Transport) (wait : Option Wait) : Prop :=
  ∃ refusals, Seeks target candidates refusals now wait ∧ attempts = refusals.map Refusal.attempt ∧
    told = refusals.map (Refusal.notice false)

theorem Leads.seeks {dialled : List Attempt} {progress : Progress}
    (h : Leads target candidates refusals dialled (later, progress)) :
    Seeking target candidates (refusals.map Refusal.attempt ++ dialled)
        (refusals.map (Refusal.notice false) ++ progress.told) later progress.wait? ∨
      Sought target candidates (refusals.map Refusal.attempt ++ dialled)
        (refusals.map (Refusal.notice false) ++ progress.told) later progress.wait? := by
  cases h with
  | nowhere hc => exact Or.inr ⟨[], _, .nowhere hc, rfl, rfl⟩
  | chosen seeks => exact Or.inl ⟨[], seeks, rfl, rfl⟩
  | refused last seeks => exact Or.inl ⟨_, seeks, by simp, by simp [Progress.told]⟩
  | exhausted last hc => exact Or.inr ⟨_, _, .exhausted refusals last hc, rfl, rfl⟩
  | accepted connection hc => exact Or.inr ⟨_, _, .accepted refusals _ connection _ hc, rfl, rfl⟩
  | stalled hc => exact Or.inr ⟨_, _, .stalled refusals _ _ hc, rfl, rfl⟩

/-- Whatever is dialled with whatever outcome, the search takes one of its courses. -/
theorem Executes.seeks {wait : Option Wait}
    (h : Executes addresses target.asking attempts told now wait) :
    Seeking target (target.candidates addresses) attempts told now wait ∨
      Sought target (target.candidates addresses) attempts told now wait := by
  induction h with
  | start => exact Or.inl ⟨[], .asked, rfl, rfl⟩
  | begins _ hnext hbegin ih =>
    rcases ih with ⟨refusals, seeks, rfl, rfl⟩ | ⟨_, _, _, rfl, _⟩
    · obtain ⟨op, next, later, wait, hnext', hbegin', seeks'⟩ := seeks.begins
      obtain ⟨rfl, rfl⟩ := Prod.mk.inj (Option.some.inj (hnext.symm.trans hnext'))
      obtain ⟨rfl, rfl⟩ := Prod.mk.inj (hbegin.symm.trans hbegin')
      exact Or.inl ⟨refusals, seeks', rfl, List.append_nil _⟩
    · simp [next?, Target.transport] at hnext
  | finds _ hresume ih =>
    rcases ih with ⟨refusals, seeks, rfl, rfl⟩ | ⟨_, _, _, _, hwait⟩
    · have leads := seeks.finds
      rw [Option.some.inj hresume] at leads
      simpa using leads.seeks
    · simp at hwait
  | dials dial _ hresume ih =>
    rcases ih with ⟨refusals, seeks, rfl, rfl⟩ | ⟨_, _, _, _, hwait⟩
    · obtain ⟨x, hx, leads⟩ := seeks.dials dial
      rw [Option.some.inj (hx.symm.trans hresume)] at leads
      exact leads.seeks
    · simp at hwait

theorem Executes.waits {first next : Transport} {op : Operation} {wait : Wait}
    (h : Executes addresses first attempts told now none) (hnext : now.next? = some (op, next))
    (hbegin : next.begin op = (later, .blocked wait)) :
    Executes addresses first attempts told later (some wait) := by
  have hbegins := h.begins hnext hbegin
  rwa [Progress.told, List.append_nil] at hbegins

/-- From one address to the next the search comes to its end, if each behaves as the plan tells. -/
theorem Executes.ends {first : Transport} {endpoint : Endpoint} {rest : List Endpoint}
    {ahead : List Attempt} (hplan : refusals.map Refusal.attempt ++ ahead = plan)
    (hahead : ahead.map Attempt.endpoint = endpoint :: rest)
    (h : Executes addresses first (refusals.map Refusal.attempt) told
      (target.trying (endpoint :: rest)) none) :
    ∃ attempts told now, Executes addresses first attempts told now none ∧ now.queue = [] ∧
      attempts <+: plan := by
  -- On what is left of the plan; the addresses that have failed are carried along as `refusals`.
  induction ahead generalizing refusals told endpoint rest with
  | nil => simp at hahead
  | cons attempt ahead ih =>
    obtain ⟨dialled, dial⟩ := attempt
    obtain ⟨rfl, hrest⟩ : dialled = endpoint ∧ ahead.map Attempt.endpoint = rest := by
      simpa using hahead
    have hprefix : refusals.map Refusal.attempt ++ [⟨dialled, dial⟩] <+: plan :=
      ⟨ahead, by simpa using hplan⟩
    have dialling : Executes addresses first (refusals.map Refusal.attempt) told
        (target.dialling rest) (some (.dial dialled)) := h.waits rfl rfl
    cases dial with
    | accepts connection => exact ⟨_, _, _, dialling.dials (.accepts connection) rfl, rfl, hprefix⟩
    | stalls => exact ⟨_, _, _, dialling.dials .stalls rfl, rfl, hprefix⟩
    | fails message =>
      cases rest with
      | nil => exact ⟨_, _, _, dialling.dials (.fails message) rfl, rfl, hprefix⟩
      | cons following rest =>
        have hplan' : (refusals ++ [Refusal.mk dialled message]).map Refusal.attempt ++ ahead = plan := by
          simpa [Refusal.attempt] using hplan
        have later : Executes addresses first
            ((refusals ++ [Refusal.mk dialled message]).map Refusal.attempt)
            (told ++ [Refusal.notice false (.mk dialled message)])
            (target.trying (following :: rest)) none := by
          rw [List.map_append]
          exact dialling.dials (.fails message) rfl
        exact ih hplan' hrest later

theorem exists_executes (hplan : plan.map Attempt.endpoint = target.candidates addresses) :
    ∃ attempts told now, Executes addresses target.asking attempts told now none ∧ now.queue = [] ∧
      attempts <+: plan := by
  have lookup : Executes addresses target.asking [] [] target.transport
      (some (.lookup target.host target.port)) := Executes.start.waits rfl rfl
  have resolved := resolved_eq target addresses
  cases hc : target.candidates addresses with
  | nil =>
    rw [hc] at resolved
    exact ⟨_, _, _, lookup.finds (congrArg some resolved), rfl, List.nil_prefix⟩
  | cons endpoint rest =>
    rw [hc] at resolved
    have found : Executes addresses target.asking (([] : List Refusal).map Refusal.attempt) []
        (target.trying (endpoint :: rest)) none := lookup.finds (congrArg some resolved)
    exact found.ends (List.nil_append plan) (hplan.trans hc)

end Transport

end FtpControl
