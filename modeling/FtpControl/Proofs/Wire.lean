import FtpControl.Proofs.Run
import Mathlib.Data.List.Infix

namespace FtpControl

/-- Where a dialogue stands. -/
inductive Standing where
  /-- The reply that this stage waits for is still to come, or its next line. -/
  | due (stage : Stage)
  /-- The reply that this stage waits for was good, and a command is to follow. -/
  | granted (stage : Stage)
  /-- A handshake has succeeded, and nothing has been sent since. -/
  | encrypted
  /-- Logged in, with nothing due. -/
  | ready
  deriving DecidableEq, Repr

namespace Standing

def stage : Standing → Stage
  | .due stage | .granted stage => stage
  | .encrypted => .awaitingHandshake
  | .ready => .loggedIn

def listens : Standing → Bool
  | .due _ | .ready => true
  | .granted _ | .encrypted => false

/-- Where a dialogue gets to with a good reply; the reply to `PWD` has to name a path. -/
def grant (line : String) (code : UInt16) : Stage → Option Standing
  | .awaitingUser => some (if code = Session.noPasswordNeeded then .ready else .granted .awaitingUser)
  | .awaitingPass | .awaitingStat => some .ready
  | .awaitingPwd =>
    match Reply.ofLine line.toList >>= Reply.quotedPath with
    | .ok _ => some .ready
    | .error _ => none
  | stage => some (.granted stage)

/-- Where a dialogue gets to with a line; some lines put an end to it. -/
def hear (line : String) : Standing → Option Standing
  | .due stage =>
    match Session.judge line with
    | .invalid => if stage = .awaitingStat then some (.due stage) else none
    | .continued => some (.due stage)
    | .refused _ => none
    | .accepted code => grant line code stage
  | standing => some standing

def Fits (authTls secure : Bool) : Standing → Prop
  | .due .notConnected | .due .awaitingHandshake | .due .loggedIn => False
  | .granted .notConnected | .granted .awaitingHandshake | .granted .loggedIn => False
  | .granted .awaitingPass | .granted .awaitingPwd | .granted .awaitingStat => False
  | .due .awaitingWelcome | .granted .awaitingWelcome => secure = false
  | .due .awaitingAuthTls | .granted .awaitingAuthTls => authTls = true ∧ secure = false
  | .due .awaitingPbsz | .granted .awaitingPbsz | .encrypted => authTls = true ∧ secure = true
  | _ => secure = authTls

end Standing

/-- A command that may be sent where the dialogue stands, and the stage that waits for its reply. -/
inductive Permits (p : Profile) : Standing → Command → Stage → Prop
  | authTls : p.authTls = true → Permits p (.granted .awaitingWelcome) .authTls .awaitingAuthTls
  | pbszZero : Permits p .encrypted .pbszZero .awaitingPbsz
  | user {name : Argument} : p.authTls = false → name.text = p.username →
      Permits p (.granted .awaitingWelcome) (.user name) .awaitingUser
  | userEncrypted {name : Argument} : name.text = p.username →
      Permits p (.granted .awaitingPbsz) (.user name) .awaitingUser
  | pass {password : Argument} : password.text = p.password →
      Permits p (.granted .awaitingUser) (.pass password) .awaitingPass
  | cwd (path : Argument) : Permits p .ready (.cwd path) .awaitingCwd
  | pwd : Permits p (.granted .awaitingCwd) .pwd .awaitingPwd
  | statList : Permits p .ready .statList .awaitingStat

structure Link where
  stream : Stream
  standing : Standing
  /-- The bytes of the line that is being sent that have not gone out. -/
  unsent : List UInt8 := []
  /-- The bytes received that no line has used. -/
  unread : List UInt8 := []
  deriving DecidableEq, Repr

inductive Wire where
  | shut
  | live (link : Link)
  deriving DecidableEq, Repr

/-- The state that a connection gets to with its dialogue, which may have come to its end. -/
def Link.move (link : Link) : Option Standing → Wire
  | some standing => .live { link with standing }
  | none => .shut

theorem Link.of_move_live {link later : Link} {next : Option Standing}
    (h : link.move next = .live later) : ∃ standing, next = some standing ∧ later = { link with standing } := by
  cases next with
  | none => simp [move] at h
  | some standing =>
    have hlink := Wire.live.inj h
    exact ⟨standing, rfl, hlink.symm⟩

inductive Wire.Step (p : Profile) : Wire → Deed → Wire → Prop
  | opened (w : Wire) (c : Nat) :
      Step p w (.opened c) (.live { stream := ⟨c, false⟩, standing := .due .awaitingWelcome })
  | began {link : Link} {command : Command} {stage : Stage} :
      Permits p link.standing command stage → link.unsent = [] →
      Step p (.live link) (.began link.stream command.line)
        (.live { link with standing := .due stage, unsent := LineBuffer.encode command.line })
  | wrote {link : Link} {bytes rest : List UInt8} : link.unsent = bytes ++ rest →
      Step p (.live link) (.wrote link.stream bytes) (.live { link with unsent := rest })
  | received {link : Link} (bytes : List UInt8) : link.standing.listens = true → link.unsent = [] →
      Step p (.live link) (.received link.stream bytes)
        (.live { link with unread := link.unread ++ bytes })
  | heard {link : Link} {line : String} {rest : List UInt8} :
      link.standing.listens = true → link.unsent = [] →
      LineBuffer.takeLine? link.unread = some (line, rest) →
      Step p (.live link)
        (.heard link.standing.stage (link.unread.take (link.unread.length - rest.length)) line)
        ({ link with unread := rest }.move (link.standing.hear line))
  | secured {link : Link} : link.standing = .granted .awaitingAuthTls → link.unsent = [] →
      Step p (.live link) (.secured link.stream.connection)
        (.live { link with stream := ⟨link.stream.connection, true⟩, standing := .encrypted })
  | unsecured {link : Link} : link.standing = .granted .awaitingAuthTls → link.unsent = [] →
      Step p (.live link) (.unsecured link.stream.connection) .shut

/-- The rows of deeds that can happen, each with the state that it leads to. -/
inductive Wire.Runs (p : Profile) : List Deed → Wire → Prop
  | start : Runs p [] .shut
  | next {deeds : List Deed} {w w' : Wire} {d : Deed} :
      Runs p deeds w → Step p w d w' → Runs p (deeds ++ [d]) w'

namespace Wire

/-- The connection is encrypted just when its dialogue is past the handshake. -/
def Sound (p : Profile) : Wire → Prop
  | .shut => True
  | .live link => link.standing.Fits p.authTls link.stream.secure

theorem Runs.of_append_singleton {p : Profile} {deeds : List Deed} {d : Deed} {w : Wire}
    (runs : Runs p (deeds ++ [d]) w) : ∃ before, Runs p deeds before ∧ Step p before d w := by
  generalize he : deeds ++ [d] = all at runs
  cases runs with
  | start => simp at he
  | next hr hs =>
    obtain ⟨rfl, hd⟩ := List.append_inj' he rfl
    cases hd
    exact ⟨_, hr, hs⟩

theorem Runs.of_append {p : Profile} {deeds later : List Deed} {w : Wire}
    (runs : Runs p (deeds ++ later) w) : ∃ before, Runs p deeds before := by
  induction later using List.reverseRecOn generalizing w with
  | nil => exact ⟨w, by simpa using runs⟩
  | append_singleton later d ih =>
    rw [← List.append_assoc] at runs
    obtain ⟨before, hr, _⟩ := runs.of_append_singleton
    exact ih hr

theorem Runs.step_at {p : Profile} {before after : List Deed} {d : Deed} {w : Wire}
    (runs : Runs p (before ++ d :: after) w) : ∃ u v, Runs p before u ∧ Step p u d v := by
  rw [List.append_cons] at runs
  obtain ⟨v, hv⟩ := runs.of_append
  obtain ⟨u, hu, hs⟩ := hv.of_append_singleton
  exact ⟨u, v, hu, hs⟩

end Wire

theorem Permits.fits {p : Profile} {standing : Standing} {command : Command} {stage : Stage}
    {secure : Bool} (h : Permits p standing command stage) (fits : standing.Fits p.authTls secure) :
    (Standing.due stage).Fits p.authTls secure := by
  cases h with
  | authTls tls => exact ⟨tls, fits⟩
  | pbszZero => exact fits
  | user plain _ => exact (show secure = false from fits).trans plain.symm
  | userEncrypted _ => exact fits.2.trans fits.1.symm
  | pass _ | cwd _ | pwd | statList => exact fits

theorem Standing.grant_fits {p : Profile} {stage : Stage} {standing : Standing} {secure : Bool}
    {line : String} {code : UInt16} (fits : (Standing.due stage).Fits p.authTls secure)
    (h : grant line code stage = some standing) : standing.Fits p.authTls secure := by
  cases stage with
  | notConnected | awaitingHandshake | loggedIn => exact fits.elim
  | awaitingPass | awaitingStat => cases h; exact fits
  | awaitingUser =>
    simp only [grant] at h
    split at h <;> cases h <;> exact fits
  | awaitingPwd =>
    simp only [grant] at h
    split at h
    next => cases h; exact fits
    next => simp at h
  | awaitingWelcome | awaitingAuthTls | awaitingPbsz | awaitingCwd => cases h; exact fits

theorem Standing.hear_fits {p : Profile} {standing later : Standing} {secure : Bool} {line : String}
    (fits : standing.Fits p.authTls secure) (h : standing.hear line = some later) :
    later.Fits p.authTls secure := by
  cases standing with
  | granted _ | encrypted | ready => cases h; exact fits
  | due stage =>
    simp only [hear] at h
    split at h
    next =>
      split at h
      next => cases h; exact fits
      next => simp at h
    next => cases h; exact fits
    next => simp at h
    next => exact grant_fits fits h

namespace Wire

theorem Step.sound {p : Profile} {w w' : Wire} {d : Deed} (h : Step p w d w') (sound : w.Sound p) :
    w'.Sound p := by
  cases h with
  | opened w c => exact rfl
  | began permits _ => exact permits.fits sound
  | wrote _ | received _ _ _ => exact sound
  | @heard link line rest _ _ _ =>
    cases hs : link.standing.hear line with
    | none => trivial
    | some standing => exact Standing.hear_fits sound hs
  | secured standing _ =>
    rw [Sound, standing] at sound
    exact ⟨sound.1, rfl⟩
  | unsecured _ _ => trivial

theorem Runs.sound {p : Profile} {deeds : List Deed} {w : Wire} (runs : Runs p deeds w) :
    w.Sound p := by
  induction runs with
  | start => trivial
  | next _ hs ih => exact hs.sound ih

theorem Step.live_cases {p : Profile} {w : Wire} {d : Deed} {later : Link}
    (h : Step p w d (.live later)) :
    (∃ c, d = .opened c ∧ later = { stream := ⟨c, false⟩, standing := .due .awaitingWelcome }) ∨
      ∃ link, w = .live link ∧ (∀ c, d ≠ .opened c) ∧ (∀ c, d ≠ .unsecured c) ∧
        (later.stream = link.stream ∧ (∀ c, d ≠ .secured c) ∨
          later.stream = ⟨link.stream.connection, true⟩ ∧ d = .secured link.stream.connection) := by
  generalize hw : Wire.live later = w' at h
  cases h with
  | opened w c =>
    cases hw
    exact Or.inl ⟨c, rfl, rfl⟩
  | began _ _ | wrote _ | received _ _ _ =>
    cases hw
    exact Or.inr ⟨_, rfl, nofun, nofun, Or.inl ⟨rfl, nofun⟩⟩
  | @heard link line rest _ _ _ =>
    obtain ⟨standing, _, rfl⟩ := Link.of_move_live hw.symm
    exact Or.inr ⟨_, rfl, nofun, nofun, Or.inl ⟨rfl, nofun⟩⟩
  | secured _ _ =>
    cases hw
    exact Or.inr ⟨_, rfl, nofun, nofun, Or.inr ⟨rfl, rfl⟩⟩
  | unsecured _ _ => simp at hw

end Wire

/-- What has happened since a connection was opened tells what has become of its stream. -/
structure Link.Recorded (deeds : List Deed) (link : Link) : Prop where
  connection : Deed.connection? deeds = some link.stream.connection
  kept : ∀ c, .unsecured c ∉ Deed.latest deeds
  secured : link.stream.secure = true ↔ .secured link.stream.connection ∈ Deed.latest deeds

namespace Wire

theorem Step.recorded {p : Profile} {deeds : List Deed} {w : Wire} {d : Deed} {later : Link}
    (h : Step p w d (.live later)) (recorded : ∀ link, w = .live link → link.Recorded deeds) :
    later.Recorded (deeds ++ [d]) := by
  rcases h.live_cases with ⟨c, rfl, rfl⟩ | ⟨link, rfl, ho, hu, hstream⟩
  · refine ⟨Deed.connection?_append_opened deeds c, ?_, ?_⟩
    · simp [Deed.latest_append_opened]
    · simp [Deed.latest_append_opened]
  · obtain ⟨connection, kept, secured⟩ := recorded link rfl
    have hlatest := Deed.latest_append deeds ho
    have hconnection := Deed.connection?_append deeds ho
    have hkept : ∀ c, .unsecured c ∉ Deed.latest (deeds ++ [d]) := by
      intro c hm
      rw [hlatest] at hm
      rcases List.mem_append.mp hm with hm | hm
      · exact kept c hm
      · exact hu c (List.mem_singleton.mp hm).symm
    rcases hstream with ⟨hstream, hs⟩ | ⟨hstream, rfl⟩
    · refine ⟨?_, hkept, ?_⟩
      · rw [hconnection, hstream, connection]
      · rw [hlatest, hstream, secured]
        constructor
        · exact List.mem_append_left _
        · intro hm
          rcases List.mem_append.mp hm with hm | hm
          · exact hm
          · exact absurd (List.mem_singleton.mp hm).symm (hs _)
    · refine ⟨?_, hkept, ?_⟩
      · rw [hconnection, hstream, connection]
      · rw [hlatest, hstream]
        simp

theorem Runs.recorded {p : Profile} {deeds : List Deed} {link : Link}
    (runs : Runs p deeds (.live link)) : link.Recorded deeds := by
  generalize hw : Wire.live link = w at runs
  induction runs generalizing link with
  | start => simp at hw
  | next _ hs ih =>
    subst hw
    exact hs.recorded fun link hl => ih hl.symm

end Wire

end FtpControl
