import FtpControl.Proofs.Simulation

namespace FtpControl

/-- The session and its transport fit together. -/
structure Session.Coupled (p : Profile) (s : Session) : Prop where
  closed : s.stage = .notConnected → s.connecting = false →
    s.transport.isOpen = false ∧ s.transport.queue = [] ∧ s.deferred = [] ∧ s.listing = #[]
  connecting : s.connecting = true →
    s.stage = .notConnected ∧ s.transport.isOpen = false ∧
      (s.transport.queue = [.resolve] ∨
        s.transport.queue = [.connect] ∧ s.transport.candidates ≠ [])
  handshake : s.stage = .awaitingHandshake →
    p.authTls = true ∧ (∃ c, s.transport.stream = some ⟨c, false⟩) ∧
      s.transport.queue = [.handshake]
  reply : s.stage.isAwaiting = true → s.stage ≠ .awaitingHandshake →
    s.transport.isOpen = true ∧
      ((∃ line, s.transport.queue = [.writeLine line, .readLine]) ∨
        s.transport.queue = [.readLine])
  ready : s.stage = .loggedIn → s.transport.isOpen = true ∧ s.transport.queue = []
  listing : s.listing ≠ #[] → s.stage = .awaitingStat
  deferred : ∀ request ∈ s.deferred,
    request = .listDirectory ∨ ∃ path, request = .changeDirectory path

def Transport.Accepts (t : Transport) : Operation → Prop
  | .resolve => True
  | .connect => t.candidates ≠ []
  | .handshake => ∃ c, t.stream = some ⟨c, false⟩
  | .writeLine _ | .readLine => t.isOpen = true

theorem Permits.stage_cases {p : Profile} {standing : Standing} {command : Command} {stage : Stage}
    (h : Permits p standing command stage) :
    stage.isAwaiting = true ∧ stage ≠ .awaitingHandshake := by
  cases h <;> exact ⟨rfl, nofun⟩

theorem Standing.Fits.stage_cases {stage : Stage} {authTls secure : Bool}
    (h : (Standing.due stage).Fits authTls secure) :
    stage.isAwaiting = true ∧ stage ≠ .awaitingHandshake := by
  cases stage with
  | notConnected | awaitingHandshake | loggedIn => exact h.elim
  | _ => exact ⟨rfl, nofun⟩

namespace Session

variable {p : Profile} {s : Session} {w : Wire} {link : Link}

theorem Uses.isOpen (uses : s.Uses link) : s.transport.isOpen = true := by
  simp [Transport.isOpen, uses.carries.stream]

theorem Tidy.navigation (tidy : s.Tidy p) : ∀ request ∈ s.deferred,
    request = .listDirectory ∨ ∃ path, request = .changeDirectory path := by
  intro request hr
  have hi := tidy.deferred request hr
  cases request with
  | connect | disconnect => simp [Request.interrupts] at hi
  | changeDirectory path => exact Or.inr ⟨path, rfl⟩
  | listDirectory => exact Or.inl rfl

theorem coupled_of_dialling (tidy : s.Tidy p) (dialling : s.Dialling)
    (hq : s.transport.queue = [.resolve] ∨
      s.transport.queue = [.connect] ∧ s.transport.candidates ≠ []) : s.Coupled p := by
  have hs := dialling.stage
  have hc := dialling.connecting
  refine ⟨?_, fun _ => ⟨hs, ?_, hq⟩, ?_, ?_, ?_, tidy.listing, tidy.navigation⟩
  · intro _ h
    simp [hc] at h
  · simp [Transport.isOpen, dialling.vacant.stream]
  · intro h
    simp [hs] at h
  · intro h
    simp [hs, Stage.isAwaiting] at h
  · intro h
    simp [hs] at h

theorem coupled_of_awaiting (tidy : s.Tidy p) (uses : s.Uses link)
    (hs : s.stage.isAwaiting = true ∧ s.stage ≠ .awaitingHandshake)
    (hq : (∃ line, s.transport.queue = [.writeLine line, .readLine]) ∨
      s.transport.queue = [.readLine]) : s.Coupled p := by
  obtain ⟨ha, hn⟩ := hs
  refine ⟨?_, ?_, fun h => absurd h hn, fun _ _ => ⟨uses.isOpen, hq⟩, ?_, tidy.listing,
    tidy.navigation⟩
  · intro h
    simp [h, Stage.isAwaiting] at ha
  · intro h
    simp [uses.connecting] at h
  · intro h
    simp [h, Stage.isAwaiting] at ha

theorem coupled_of_rests (tidy : s.Tidy p) (sound : w.Sound p)
    (rests : s.Rests w s.transport.queue) : s.Coupled p := by
  generalize hq : s.transport.queue = queue at rests
  cases rests with
  | closed w h =>
    have hs := h.stage
    have hclosed : s.transport.isOpen = false := by simp [Transport.isOpen, h.vacant.stream]
    have hlisting := tidy.unlisted (by simp [hs])
    refine ⟨fun _ _ => ⟨hclosed, hq, h.deferred, hlisting⟩, ?_, ?_, ?_, ?_, tidy.listing,
      tidy.navigation⟩
    · intro hc
      simp [h.connecting] at hc
    · intro hc
      simp [hs] at hc
    · intro hc
      simp [hs, Stage.isAwaiting] at hc
    · intro hc
      simp [hs] at hc
  | resolving w h hc => exact coupled_of_dialling tidy h (Or.inl hq)
  | dialling w h hc => exact coupled_of_dialling tidy h (Or.inr ⟨hq, hc⟩)
  | @shaking link uses hs hg =>
    have hfits : p.authTls = true ∧ link.stream.secure = false := by
      rw [Wire.Sound, hg] at sound
      exact sound
    have hplain : s.transport.stream = some ⟨link.stream.connection, false⟩ := by
      rw [uses.carries.stream, ← hfits.2]
    refine ⟨?_, ?_, fun _ => ⟨hfits.1, ⟨_, hplain⟩, hq⟩, fun _ h => absurd hs h, ?_,
      tidy.listing, tidy.navigation⟩
    · intro h
      simp [hs] at h
    · intro h
      simp [uses.connecting] at h
    · intro h
      simp [hs] at h
  | sending uses permits =>
    exact coupled_of_awaiting tidy uses permits.stage_cases (Or.inl ⟨_, hq⟩)
  | reading uses due =>
    rw [Wire.Sound, due] at sound
    exact coupled_of_awaiting tidy uses sound.stage_cases (Or.inr hq)
  | ready uses hs hr =>
    refine ⟨?_, ?_, ?_, ?_, fun _ => ⟨uses.isOpen, hq⟩, tidy.listing, tidy.navigation⟩
    · intro h
      simp [hs] at h
    · intro h
      simp [uses.connecting] at h
    · intro h
      simp [hs] at h
    · intro h
      simp [hs, Stage.isAwaiting] at h

theorem Rests.accepts {op : Operation} {ops : List Operation} (sound : w.Sound p)
    (rests : s.Rests w (op :: ops)) : s.transport.Accepts op := by
  cases rests with
  | resolving w h hc => trivial
  | dialling w h hc => exact hc
  | @shaking link uses hs hg =>
    have hplain : link.stream.secure = false := by
      rw [Wire.Sound, hg] at sound
      exact sound.2
    refine ⟨link.stream.connection, ?_⟩
    rw [uses.carries.stream, ← hplain]
  | sending uses permits => exact uses.isOpen
  | reading uses due => exact uses.isOpen

end Session

theorem Runner.Matches.accepts {p : Profile} {r : Runner} {w : Wire} {op : Operation} {watch : Bool}
    (matched : r.Matches p w) (sound : w.Sound p) (hp : r.phase = .ready op watch) :
    r.session.transport.Accepts op := by
  obtain ⟨s, phase⟩ := r
  obtain ⟨tidy, matched⟩ := matched
  dsimp only at hp matched
  subst hp
  cases watch with
  | false => exact Session.Rests.accepts sound matched
  | true =>
    obtain ⟨rfl, link, rfl, reads⟩ := matched
    exact reads.uses.isOpen

end FtpControl
