import FtpControl.Proofs.Framing

namespace FtpControl

open LineBuffer

/-- An operation that looks for a server. The others need a stream. -/
def Operation.seeks : Operation → Bool
  | .resolve | .connect => true
  | .handshake | .writeLine _ | .readLine => false

def Wait.seeks : Wait → Bool
  | .lookup _ _ | .dial _ => true
  | .negotiate _ _ | .transmit _ _ | .receive _ => false

namespace Transport

/-- What the owner of a connection can do with it. -/
inductive Use where
  | connect (host : String) (port : UInt16) (family : Address.Family)
  | handshake
  | sendLine (text : String)
  | readLine
  | disconnect
  /-- Carries out the next operation as far as these answers go. If it still waits, it is given up. -/
  | execute (answers : List Answer)
  /-- Takes the next operation from the queue and gives it up before it begins. -/
  | skip
  deriving DecidableEq, Repr

inductive Use.Result where
  | done
  | refused (failure : Failure)
  | idle
  | executed (op : Operation) (progress : Progress)
  | skipped (op : Operation)
  deriving DecidableEq, Repr

def respond : Transport × Progress → Answer → Transport × Progress
  | (t, .blocked wait), answer => (t.resume wait answer).getD (t, .blocked wait)
  | (t, .done notice), _ => (t, .done notice)

def follow (x : Transport × Progress) (answers : List Answer) : Transport × Progress :=
  answers.foldl respond x

/-- A request is granted, or it leaves everything as it is. -/
def granted (t : Transport) : Except Failure Transport → Transport × Use.Result
  | .ok later => (later, .done)
  | .error failure => (t, .refused failure)

def use (t : Transport) : Use → Transport × Use.Result
  | .connect host port family => (t.connect host port family, .done)
  | .handshake => t.granted t.requestHandshake
  | .sendLine text => t.granted (t.request (.writeLine text))
  | .readLine => t.granted (t.request .readLine)
  | .disconnect => (t.disconnect, .done)
  | .execute answers =>
    match t.next? with
    | none => (t, .idle)
    | some (op, next) =>
      let (later, progress) := follow (next.begin op) answers
      (later, .executed op progress)
  | .skip =>
    match t.next? with
    | none => (t, .idle)
    | some (op, next) => (next, .skipped op)

/-- What a use can come to. -/
inductive Yields (t : Transport) : Use → Transport × Use.Result → Prop
  | connects (host : String) (port : UInt16) (family : Address.Family) :
      Yields t (.connect host port family) (t.connect host port family, .done)
  | disconnects : Yields t .disconnect (t.disconnect, .done)
  | grants {u : Use} {op : Operation} : t.isOpen = true → op.seeks = false → Yields t u (t.push op, .done)
  | refuses {u : Use} {failure : Failure} : failure.kind = .invalidState →
      t.isOpen = false ∨ u = .handshake ∧ t.encrypted = true → Yields t u (t, .refused failure)
  | idles {u : Use} : t.next? = none → Yields t u (t, .idle)
  | executes {op : Operation} {next : Transport} (answers : List Answer) :
      t.next? = some (op, next) → Yields t (.execute answers)
        ((follow (next.begin op) answers).1, .executed op (follow (next.begin op) answers).2)
  | skips {op : Operation} {next : Transport} : t.next? = some (op, next) →
      Yields t .skip (next, .skipped op)

def after (t : Transport) (uses : List Use) : Transport :=
  uses.foldl (fun t u => (t.use u).1) t

def Used (t : Transport) : Prop :=
  ∃ (trust : Trust) (uses : List Use), ({ trust } : Transport).after uses = t

/-- The stream is closed, and nothing is left of it. -/
structure Emptied (t : Transport) : Prop where
  stream : t.stream = none
  queue : t.queue = []
  candidates : t.candidates = []
  buffer : t.buffer = []

structure Fresh (t : Transport) : Prop where
  stream : t.stream = none
  plain : t.encrypted = false
  buffer : t.buffer = []

def Flagged (t : Transport) : Prop :=
  ∀ stream, t.stream = some stream → t.encrypted = stream.secure

/-- How a connection stands, with what the operation under way waits for. -/
inductive Stands (t : Transport) : Option Wait → Prop
  | asked : t.Fresh → t.queue = [.resolve] → Stands t none
  | trying : t.Fresh → t.queue = [.connect] → t.candidates ≠ [] → Stands t none
  | seeking {wait : Wait} : t.Fresh → t.queue = [] → wait.seeks = true → Stands t (some wait)
  | serving {wait : Option Wait} : t.Flagged → (∀ op ∈ t.queue, op.seeks = false) →
      (∀ other, wait = some other → other.seeks = false) → Stands t wait

/-- An operation has left the connection as it should be. A failure that ends the connection leaves
nothing of it. -/
structure Leaves (x : Transport × Progress) : Prop where
  stands : x.1.Stands x.2.wait?
  failed : ∀ message fatal, x.2 = .done (some (.error message fatal)) → fatal = true ∧ x.1.Emptied
  exhausted : ∀ message, x.2 = .done (some (.endpointFailed message true)) → x.1.Emptied

variable {t next : Transport} {op : Operation} {wait : Wait} {answer : Answer}
  {x : Transport × Progress}

theorem disconnect_emptied (t : Transport) : t.disconnect.Emptied :=
  ⟨rfl, rfl, rfl, rfl⟩

theorem follow_concat (x : Transport × Progress) (answers : List Answer) (answer : Answer) :
    follow x (answers ++ [answer]) = respond (follow x answers) answer := by
  simp [follow, List.foldl_append]

theorem follow_keeps {P : Transport × Progress → Prop}
    (step : ∀ {t wait answer x}, P (t, .blocked wait) → Resumes t wait answer x → P x)
    (h : P x) (answers : List Answer) : P (follow x answers) := by
  induction answers generalizing x with
  | nil => exact h
  | cons answer answers ih =>
    refine ih ?_
    obtain ⟨t, progress⟩ := x
    cases progress with
    | done notice => exact h
    | blocked wait =>
      cases hx : t.resume wait answer with
      | none =>
        have hsame : respond (t, .blocked wait) answer = (t, .blocked wait) := by simp [respond, hx]
        rwa [hsame]
      | some x =>
        have hnext : respond (t, .blocked wait) answer = x := by simp [respond, hx]
        rw [hnext]
        exact step h (resume_resumes hx)

theorem use_execute (hnext : t.next? = some (op, next)) (answers : List Answer) :
    t.use (.execute answers) =
      ((follow (next.begin op) answers).1, .executed op (follow (next.begin op) answers).2) := by
  simp [use, hnext]

theorem use_skip (hnext : t.next? = some (op, next)) : t.use .skip = (next, .skipped op) := by
  simp [use, hnext]

theorem request_yields (t : Transport) (u : Use) (hop : op.seeks = false) :
    Yields t u (t.granted (t.request op)) := by
  unfold request
  split
  next hopen => exact .grants hopen hop
  next hopen => exact .refuses rfl (Or.inl (by simpa using hopen))

theorem use_yields (t : Transport) (u : Use) : Yields t u (t.use u) := by
  cases u with
  | connect host port family => exact .connects host port family
  | handshake =>
    change Yields t .handshake (t.granted t.requestHandshake)
    unfold requestHandshake
    split
    next h => exact .refuses rfl (Or.inr ⟨rfl, h.2⟩)
    next => exact t.request_yields .handshake rfl
  | sendLine text => exact t.request_yields (.sendLine text) rfl
  | readLine => exact t.request_yields .readLine rfl
  | disconnect => exact .disconnects
  | execute answers =>
    cases hnext : t.next? with
    | none =>
      have hidle : t.use (.execute answers) = (t, .idle) := by simp [use, hnext]
      rw [hidle]
      exact .idles hnext
    | some popped =>
      rw [use_execute hnext]
      exact .executes answers hnext
  | skip =>
    cases hnext : t.next? with
    | none =>
      have hidle : t.use .skip = (t, .idle) := by simp [use, hnext]
      rw [hidle]
      exact .idles hnext
    | some popped =>
      rw [use_skip hnext]
      exact .skips hnext

/-- What each call and each operation keeps holds of a connection that has been used. -/
theorem Used.keeps {P : Transport → Prop} (start : ∀ trust, P { trust })
    (connect : ∀ t host port family, P (connect t host port family))
    (disconnect : ∀ t, P (disconnect t))
    (push : ∀ {t op}, P t → t.isOpen = true → op.seeks = false → P (t.push op))
    (skip : ∀ {t op next}, P t → t.next? = some (op, next) → P next)
    (execute : ∀ {t op next} (answers : List Answer), P t → t.next? = some (op, next) →
      P (follow (next.begin op) answers).1)
    (used : t.Used) : P t := by
  have step : ∀ {t : Transport} {u : Use} {x}, P t → Yields t u x → P x.1 := by
    intro t u x h yields
    cases yields with
    | connects host port family => exact connect t host port family
    | disconnects => exact disconnect t
    | grants hopen hop => exact push h hopen hop
    | refuses _ _ | idles _ => exact h
    | executes answers hnext => exact execute answers h hnext
    | skips hnext => exact skip h hnext
  obtain ⟨trust, uses, rfl⟩ := used
  induction uses using List.reverseRecOn with
  | nil => exact start trust
  | append_singleton uses u ih =>
    rw [after, List.foldl_append]
    exact step ih (use_yields _ u)

theorem Emptied.flagged (h : t.Emptied) : t.Flagged := by
  intro stream hs
  rw [h.stream] at hs
  simp at hs

theorem Fresh.flagged (h : t.Fresh) : t.Flagged := by
  intro stream hs
  rw [h.stream] at hs
  simp at hs

theorem Stands.of_seeking (h : t.Stands (some wait)) (hw : wait.seeks = true) :
    t.Fresh ∧ t.queue = [] := by
  cases h with
  | seeking fresh hq _ => exact ⟨fresh, hq⟩
  | serving _ _ hn => simp [hn wait rfl] at hw

theorem Stands.of_serving (h : t.Stands (some wait)) (hw : wait.seeks = false) :
    t.Flagged ∧ ∀ op ∈ t.queue, op.seeks = false := by
  cases h with
  | seeking _ _ hs => simp [hs] at hw
  | serving flagged hq _ => exact ⟨flagged, hq⟩

theorem Stands.flagged {wait : Option Wait} (h : t.Stands wait) : t.Flagged := by
  cases h with
  | asked fresh _ | trying fresh _ _ | seeking fresh _ _ => exact fresh.flagged
  | serving flagged _ _ => exact flagged

theorem Stands.giveUp {wait : Option Wait} (h : t.Stands wait) : t.Stands none := by
  cases h with
  | asked fresh hq => exact .asked fresh hq
  | trying fresh hq hc => exact .trying fresh hq hc
  | seeking fresh hq _ => exact .serving fresh.flagged (by simp [hq]) (by simp)
  | serving flagged hq _ => exact .serving flagged hq (by simp)

theorem Emptied.stands (h : t.Emptied) : t.Stands none :=
  .serving h.flagged (by simp [h.queue]) (by simp)

theorem leaves_fatal (t : Transport) (message : String) : Leaves (t.fatal message) where
  stands := t.disconnect_emptied.stands
  failed := by
    intro message fatal h
    cases h
    exact ⟨rfl, t.disconnect_emptied⟩
  exhausted := by simp [fatal]

theorem leaves_finish {notice : Notice} (h : t.Stands none)
    (failed : ∀ message fatal, notice ≠ .error message fatal)
    (exhausted : ∀ message, notice ≠ .endpointFailed message true) : Leaves (t.finish notice) where
  stands := h
  failed := by
    intro message fatal hn
    simp [finish, failed] at hn
  exhausted := by
    intro message hn
    simp [finish, exhausted] at hn

theorem leaves_seeking (fresh : t.Fresh) (hq : t.queue = []) (hw : wait.seeks = true) :
    Leaves (t, .blocked wait) :=
  ⟨.seeking fresh hq hw, by simp, by simp⟩

theorem leaves_serving (flagged : t.Flagged) (hq : ∀ op ∈ t.queue, op.seeks = false)
    (hw : wait.seeks = false) : Leaves (t, .blocked wait) := by
  refine ⟨.serving flagged hq ?_, by simp, by simp⟩
  intro other ho
  cases ho
  exact hw

theorem leaves_readsOn (flagged : t.Flagged) (hq : ∀ op ∈ t.queue, op.seeks = false)
    (h : ReadsOn t x) : Leaves x := by
  cases h with
  | line _ _ => exact leaves_finish (.serving flagged hq (by simp)) (by simp) (by simp)
  | fails message => exact leaves_fatal _ message
  | waits _ _ _ => exact leaves_serving flagged hq rfl

theorem next?_eq_some (h : t.next? = some (op, next)) :
    t.queue = op :: next.queue ∧ next = { t with queue := next.queue } := by
  unfold next? at h
  split at h
  next => simp at h
  next hq =>
    cases h
    exact ⟨hq, rfl⟩

/-- What is taken from the queue looks for a server alone, or it needs a stream as all the others do. -/
theorem Stands.pop (h : t.Stands none) (hnext : t.next? = some (op, next)) :
    (op.seeks = true → next.Fresh ∧ next.queue = []) ∧
      (op.seeks = false → next.Flagged ∧ ∀ other ∈ next.queue, other.seeks = false) := by
  obtain ⟨hops, hsame⟩ := next?_eq_some hnext
  generalize next.queue = queue at hops hsame
  subst hsame
  have alone : ∀ {first : Operation}, t.queue = [first] → op = first ∧ queue = [] := by
    intro first hq
    simpa using hops.symm.trans hq
  have searching : t.Fresh → queue = [] →
      Fresh { t with queue } ∧ ({ t with queue } : Transport).queue = [] :=
    fun fresh hq => ⟨⟨fresh.stream, fresh.plain, fresh.buffer⟩, hq⟩
  cases h with
  | asked fresh hq =>
    obtain ⟨rfl, hnone⟩ := alone hq
    exact ⟨fun _ => searching fresh hnone, by simp [Operation.seeks]⟩
  | trying fresh hq _ =>
    obtain ⟨rfl, hnone⟩ := alone hq
    exact ⟨fun _ => searching fresh hnone, by simp [Operation.seeks]⟩
  | serving flagged hq _ =>
    have hop : op.seeks = false := hq op (by simp [hops])
    refine ⟨by simp [hop], fun _ => ⟨flagged, ?_⟩⟩
    intro other ho
    exact hq other (by rw [hops]; exact List.mem_cons_of_mem _ ho)

theorem Stands.skip (h : t.Stands none) (hnext : t.next? = some (op, next)) : next.Stands none := by
  obtain ⟨searching, served⟩ := h.pop hnext
  cases hop : op.seeks with
  | true =>
    obtain ⟨fresh, hq⟩ := searching hop
    exact .serving fresh.flagged (by simp [hq]) (by simp)
  | false =>
    obtain ⟨flagged, hq⟩ := served hop
    exact .serving flagged hq (by simp)

theorem next?_push (hq : t.queue = []) (op : Operation) : (t.push op).next? = some (op, t) := by
  obtain ⟨trust, host, port, family, stream, encrypted, candidates, queue, buffer⟩ := t
  cases hq
  rfl

theorem leaves_begin (h : t.Stands none) (hnext : t.next? = some (op, next))
    (begins : Begins next op x) : Leaves x := by
  obtain ⟨searching, served⟩ := h.pop hnext
  cases begins with
  | looksUp =>
    obtain ⟨fresh, hq⟩ := searching rfl
    exact leaves_seeking fresh hq rfl
  | dials _ =>
    obtain ⟨fresh, hq⟩ := searching rfl
    exact leaves_seeking ⟨fresh.stream, fresh.plain, fresh.buffer⟩ hq rfl
  | negotiates name _ _ =>
    obtain ⟨_, hq⟩ := served rfl
    -- The stream is taken away for the handshake, so that the flag has nothing to tell of.
    exact leaves_serving (by simp [Flagged]) hq rfl
  | transmits text _ =>
    obtain ⟨flagged, hq⟩ := served rfl
    exact leaves_serving flagged hq rfl
  | reads reads =>
    obtain ⟨flagged, hq⟩ := served rfl
    exact leaves_readsOn flagged hq reads
  | fails _ message => exact leaves_fatal _ message

theorem leaves_resume (h : t.Stands (some wait)) (resumes : Resumes t wait answer x) : Leaves x := by
  cases resumes with
  | finds host port endpoints hc =>
    obtain ⟨fresh, hq⟩ := h.of_seeking rfl
    refine ⟨.trying ⟨fresh.stream, fresh.plain, fresh.buffer⟩ ?_ hc, by simp, by simp⟩
    simp [pushFront, hq]
  | connects endpoint c =>
    obtain ⟨fresh, hq⟩ := h.of_seeking rfl
    refine leaves_finish (.serving ?_ (by simp [hq]) (by simp)) (by simp) (by simp)
    -- The connect has taken back what the flag told of an earlier stream.
    intro stream hs
    obtain rfl := Option.some.inj hs
    exact fresh.plain
  | passesOver endpoint message hc =>
    obtain ⟨fresh, hq⟩ := h.of_seeking rfl
    have hfront : (t.pushFront .connect).queue = [.connect] := by simp [pushFront, hq]
    have fresh' : (t.pushFront .connect).Fresh := ⟨fresh.stream, fresh.plain, fresh.buffer⟩
    exact leaves_finish (.trying fresh' hfront hc) (by simp) (by simp)
  | exhausts endpoint message hc =>
    obtain ⟨fresh, hq⟩ := h.of_seeking rfl
    have emptied : t.Emptied := ⟨fresh.stream, hq, hc, fresh.buffer⟩
    exact ⟨emptied.stands, by simp [finish], fun _ _ => emptied⟩
  | secures c name =>
    obtain ⟨_, hq⟩ := h.of_serving rfl
    refine leaves_finish (.serving ?_ hq (by simp)) (by simp) (by simp)
    intro stream hs
    obtain rfl := Option.some.inj hs
    rfl
  | writes _ _ =>
    obtain ⟨flagged, hq⟩ := h.of_serving rfl
    exact leaves_finish (.serving flagged hq (by simp)) (by simp) (by simp)
  | writesOn _ _ =>
    obtain ⟨flagged, hq⟩ := h.of_serving rfl
    exact leaves_serving flagged hq rfl
  | reads _ chunk reads =>
    obtain ⟨flagged, hq⟩ := h.of_serving rfl
    exact leaves_readsOn (t := { t with buffer := t.buffer ++ chunk.bytes }) flagged hq reads
  | fails _ message _ => exact leaves_fatal _ message

/-- Whatever the network does, and wherever it stops, an operation leaves the connection in order. -/
theorem leaves_executed (h : t.Stands none) (hnext : t.next? = some (op, next))
    (answers : List Answer) : Leaves (follow (next.begin op) answers) :=
  follow_keeps (fun h => leaves_resume h.stands) (leaves_begin h hnext (next.begin_begins op)) answers

theorem Stands.connect (t : Transport) (host : String) (port : UInt16) (family : Address.Family) :
    (t.connect host port family).Stands none :=
  .asked ⟨rfl, rfl, rfl⟩ rfl

theorem Stands.push (h : t.Stands none) (hopen : t.isOpen = true) (hop : op.seeks = false) :
    (t.push op).Stands none := by
  cases h with
  | asked fresh _ | trying fresh _ _ => simp [isOpen, fresh.stream] at hopen
  | serving flagged hq _ =>
    refine .serving flagged ?_ (by simp)
    intro other ho
    rcases List.mem_append.mp ho with ho | ho
    · exact hq other ho
    · rw [List.mem_singleton.mp ho]
      exact hop

theorem Used.stands (used : t.Used) : t.Stands none :=
  used.keeps (fun _ => Emptied.stands ⟨rfl, rfl, rfl, rfl⟩) Stands.connect
    (fun t => t.disconnect_emptied.stands) Stands.push Stands.skip
    fun answers h hnext => (leaves_executed h hnext answers).stands.giveUp

theorem Used.after (used : t.Used) (uses : List Use) : (t.after uses).Used := by
  obtain ⟨trust, earlier, rfl⟩ := used
  exact ⟨trust, earlier ++ uses, List.foldl_append⟩

theorem Stands.candidates_ne_nil (h : t.Stands none) (hq : .connect ∈ t.queue) : t.candidates ≠ [] := by
  cases h with
  | asked _ hops => simp [hops] at hq
  | trying _ _ hc => exact hc
  | serving _ hn _ => simpa [Operation.seeks] using hn .connect hq

theorem use_refused {u : Use} {failure : Failure} (h : (t.use u).2 = .refused failure) :
    (t.use u).1 = t ∧ failure.kind = .invalidState ∧
      (t.isOpen = false ∨ u = .handshake ∧ t.encrypted = true) := by
  have yields := t.use_yields u
  generalize t.use u = x at h yields ⊢
  cases yields with
  | refuses hkind hwhy =>
    cases h
    exact ⟨rfl, hkind, hwhy⟩
  | connects _ _ _ | disconnects | grants _ _ | idles _ | executes _ _ | skips _ => simp at h

theorem Stands.executed {u : Use} {progress : Progress} (h : t.Stands none)
    (hu : (t.use u).2 = .executed op progress) : Leaves ((t.use u).1, progress) := by
  have yields := t.use_yields u
  generalize t.use u = x at hu yields ⊢
  cases yields with
  | executes answers hnext =>
    cases hu
    exact leaves_executed h hnext answers
  | connects _ _ _ | disconnects | grants _ _ | refuses _ _ | idles _ | skips _ => simp at hu

theorem Used.of_use {later : Transport} (used : t.Used) (u : Use) (h : (t.use u).1 = later) : later.Used :=
  h ▸ used.after [u]

theorem Used.skip (used : t.Used) (hnext : t.next? = some (op, next)) : next.Used :=
  used.of_use .skip (by rw [use_skip hnext])

theorem Used.execute (used : t.Used) (hnext : t.next? = some (op, next)) (answers : List Answer) :
    (follow (next.begin op) answers).1.Used :=
  used.of_use (.execute answers) (by rw [use_execute hnext])

end Transport

end FtpControl
