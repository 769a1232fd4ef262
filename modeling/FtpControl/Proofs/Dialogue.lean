import FtpControl.Proofs.ReplyJudgement
import FtpControl.Proofs.Wire
import Mathlib.Computability.Language

open scoped Computability

namespace FtpControl

namespace Dialogue

def encryption (authTls : Bool) : Language Command :=
  if authTls then {[.authTls, .pbszZero]} else 1

def user : Language Command :=
  {word : List Command | ∃ name, word = [.user name]}

def password (asked : Bool) : Language Command :=
  if asked then {word : List Command | ∃ password, word = [.pass password]} else 1

def navigation : Language Command :=
  {word : List Command | (∃ path, word = [.cwd path, .pwd]) ∨ word = [.statList]}

/-- All that can be sent on a connection. -/
def words (authTls asked : Bool) : Language Command :=
  encryption authTls * user * password asked * navigation∗

/-- What can still be sent at a stage. -/
def ahead (authTls asked : Bool) : Stage → Language Command
  | .notConnected => 0
  | .awaitingWelcome => encryption authTls * (user * (password asked * navigation∗))
  | .awaitingAuthTls | .awaitingHandshake => {[.pbszZero]} * (user * (password asked * navigation∗))
  | .awaitingPbsz => user * (password asked * navigation∗)
  | .awaitingUser => password asked * navigation∗
  | .awaitingCwd => {[.pwd]} * navigation∗
  | .awaitingPass | .loggedIn | .awaitingPwd | .awaitingStat => navigation∗

theorem ahead_welcome (authTls asked : Bool) :
    ahead authTls asked .awaitingWelcome = words authTls asked := by
  simp only [ahead, words, mul_assoc]

theorem mem_navigation_star {first rest : List Command} (hf : first ∈ navigation)
    (hr : rest ∈ navigation∗) : first ++ rest ∈ navigation∗ := by
  obtain ⟨parts, rfl, hparts⟩ := Language.mem_kstar.mp hr
  refine Language.mem_kstar.mpr ⟨first :: parts, by simp, ?_⟩
  intro part hp
  rcases List.mem_cons.mp hp with rfl | hp
  · exact hf
  · exact hparts part hp

theorem mem_singleton (word : List Command) : word ∈ ({word} : Language Command) :=
  rfl

theorem mem_password (asked : Bool) : ∃ word, word ∈ password asked := by
  cases asked with
  | true => exact ⟨[.pass ⟨"x", by decide, by decide⟩], _, rfl⟩
  | false => exact ⟨[], Language.nil_mem_one⟩

theorem mem_encryption (authTls : Bool) : ∃ word, word ∈ encryption authTls := by
  cases authTls with
  | true => exact ⟨_, mem_singleton _⟩
  | false => exact ⟨[], Language.nil_mem_one⟩

theorem exists_ahead (authTls asked : Bool) {stage : Stage} (hs : stage ≠ .notConnected) :
    ∃ rest, rest ∈ ahead authTls asked stage := by
  have hnil : [] ∈ navigation∗ := Language.nil_mem_kstar _
  obtain ⟨word, hword⟩ := mem_password asked
  have hpassword := Language.append_mem_mul hword hnil
  have huser : [.user ⟨"x", by decide, by decide⟩] ∈ user := ⟨_, rfl⟩
  have hlogin := Language.append_mem_mul huser hpassword
  obtain ⟨first, hfirst⟩ := mem_encryption authTls
  cases stage with
  | notConnected => exact absurd rfl hs
  | awaitingWelcome => exact ⟨_, Language.append_mem_mul hfirst hlogin⟩
  | awaitingAuthTls | awaitingHandshake =>
    exact ⟨_, Language.append_mem_mul (mem_singleton [.pbszZero]) hlogin⟩
  | awaitingPbsz => exact ⟨_, hlogin⟩
  | awaitingUser => exact ⟨_, hpassword⟩
  | awaitingCwd =>
    exact ⟨_, Language.append_mem_mul (mem_singleton [.pwd]) hnil⟩
  | awaitingPass | loggedIn | awaitingPwd | awaitingStat => exact ⟨_, hnil⟩

/-- A command that may be sent is the first of what can follow. -/
theorem cons_mem_ahead {p : Profile} {standing : Standing} {command : Command} {stage : Stage}
    {asked : Bool} {rest : List Command} (permits : Permits p standing command stage)
    (ha : standing = .granted .awaitingUser → asked = true)
    (hr : rest ∈ ahead p.authTls asked stage) :
    command :: rest ∈ ahead p.authTls asked standing.stage := by
  cases permits with
  | authTls tls =>
    obtain ⟨first, rfl, tail, ht, rfl⟩ := Language.mem_mul.mp hr
    have hfirst : [.authTls, .pbszZero] ∈ encryption p.authTls := by
      rw [tls]
      exact mem_singleton _
    exact Language.append_mem_mul hfirst ht
  | pbszZero => exact Language.append_mem_mul (mem_singleton [.pbszZero]) hr
  | @user name plain _ =>
    have hfirst : [] ∈ encryption p.authTls := by
      rw [plain]
      exact Language.nil_mem_one
    have huser : [.user name] ∈ user := ⟨name, rfl⟩
    exact Language.append_mem_mul hfirst (Language.append_mem_mul huser hr)
  | @userEncrypted name _ =>
    have huser : [.user name] ∈ user := ⟨name, rfl⟩
    exact Language.append_mem_mul huser hr
  | @pass text _ =>
    have hpassword : [.pass text] ∈ password asked := by
      rw [ha rfl]
      exact ⟨text, rfl⟩
    exact Language.append_mem_mul hpassword hr
  | cwd path =>
    obtain ⟨first, rfl, tail, ht, rfl⟩ := Language.mem_mul.mp hr
    exact mem_navigation_star (Or.inl ⟨path, rfl⟩) ht
  | pwd => exact Language.append_mem_mul (mem_singleton [.pwd]) hr
  | statList => exact mem_navigation_star (Or.inr rfl) hr

/-- A line leaves as much to follow as there was, or less. -/
theorem mem_ahead_of_hear {authTls asked : Bool} {line : String} {standing later : Standing}
    {rest : List Command} (h : standing.hear line = some later)
    (ha : ∀ code, standing = .due .awaitingUser → Session.judge line = .accepted code →
      (asked = true ↔ code ≠ Session.noPasswordNeeded))
    (hr : rest ∈ ahead authTls asked later.stage) : rest ∈ ahead authTls asked standing.stage := by
  cases standing with
  | granted _ | encrypted | ready =>
    cases h
    exact hr
  | due stage =>
    simp only [Standing.hear] at h
    split at h
    next =>
      split at h
      next => cases h; exact hr
      next => simp at h
    next => cases h; exact hr
    next => simp at h
    next code hc =>
      cases stage with
      | awaitingUser =>
        simp only [Standing.grant] at h
        split at h
        next hcode =>
          -- The reply says that no password is needed, so none was asked for.
          have hno : asked = false := by
            have hiff := ha code rfl hc
            simpa [hcode] using hiff
          cases h
          have hnone : [] ∈ password asked := by
            rw [hno]
            exact Language.nil_mem_one
          exact Language.append_mem_mul hnone hr
        next => cases h; exact hr
      | awaitingPwd =>
        simp only [Standing.grant] at h
        split at h
        next => cases h; exact hr
        next => simp at h
      | awaitingPass | awaitingStat => cases h; exact hr
      | notConnected | awaitingWelcome | awaitingAuthTls | awaitingHandshake | awaitingPbsz
      | loggedIn | awaitingCwd => cases h; exact hr

end Dialogue

namespace Deed

def begun (deeds : List Deed) : List String :=
  deeds.filterMap fun d =>
    match d with
    | .began _ line => some line
    | _ => none

def Suits (asked : Bool) (deeds : List Deed) : Prop :=
  ∀ bytes line reply, .heard .awaitingUser bytes line ∈ deeds →
    Reply.ofLine? line.toList = some reply → reply.last = true →
      (asked = true ↔ reply.number.val ≠ 230)

/-- The lines that have been sent are these commands, with the profile's name and password. -/
structure Spells (p : Profile) (deeds : List Deed) (commands : List Command) : Prop where
  lines : begun deeds = commands.map Command.line
  name : ∀ name, .user name ∈ commands → name.text = p.username
  password : ∀ password, .pass password ∈ commands → password.text = p.password

theorem begun_append_singleton {d : Deed} (deeds : List Deed) (hd : ∀ stream line, d ≠ .began stream line) :
    begun (deeds ++ [d]) = begun deeds := by
  cases d with
  | began stream line => exact absurd rfl (hd stream line)
  | _ => simp [begun]

theorem begun_append_began (deeds : List Deed) (stream : Stream) (line : String) :
    begun (deeds ++ [.began stream line]) = begun deeds ++ [line] := by
  simp [begun]

theorem Suits.of_append {asked : Bool} {deeds later : List Deed} (h : Suits asked (deeds ++ later)) :
    Suits asked deeds :=
  fun bytes line reply hm => h bytes line reply (List.mem_append_left _ hm)

theorem Suits.code {asked : Bool} {deeds : List Deed} {bytes : List UInt8} {line : String}
    {code : UInt16} (h : Suits asked (deeds ++ [.heard .awaitingUser bytes line]))
    (hc : Session.judge line = .accepted code) :
    asked = true ↔ code ≠ Session.noPasswordNeeded := by
  obtain ⟨reply, hl, last, _, rfl⟩ := Session.reply_of_accepted hc
  have hn : reply.number.val < 1000 := reply.number.isLt
  rw [h bytes line reply (List.mem_append_right _ (List.mem_singleton_self _)) hl last]
  rw [not_iff_not]
  constructor
  · intro hcode
    rw [hcode]
    rfl
  · intro hcode
    have hnat := congrArg UInt16.toNat hcode
    rw [UInt16.toNat_ofNat_of_lt' (Nat.lt_trans hn (by decide))] at hnat
    exact hnat

theorem Spells.quiet {p : Profile} {deeds : List Deed} {commands : List Command} {d : Deed}
    (h : Spells p deeds commands) (hd : ∀ stream line, d ≠ .began stream line) :
    Spells p (deeds ++ [d]) commands := by
  refine ⟨?_, h.name, h.password⟩
  rw [begun_append_singleton deeds hd]
  exact h.lines

theorem Spells.began {p : Profile} {deeds : List Deed} {commands : List Command} {stream : Stream}
    {standing : Standing} {command : Command} {stage : Stage} (h : Spells p deeds commands)
    (permits : Permits p standing command stage) :
    Spells p (deeds ++ [.began stream command.line]) (commands ++ [command]) := by
  refine ⟨?_, ?_, ?_⟩
  · rw [begun_append_began, h.lines, List.map_append]
    rfl
  · intro name hm
    rcases List.mem_append.mp hm with hm | hm
    · exact h.name name hm
    · cases List.mem_singleton.mp hm
      cases permits with
      | user _ hn | userEncrypted hn => exact hn
  · intro password hm
    rcases List.mem_append.mp hm with hm | hm
    · exact h.password password hm
    · cases List.mem_singleton.mp hm
      cases permits with
      | pass hw => exact hw

end Deed

/-- What has been sent on a connection goes on to a word with whatever can follow. -/
structure Link.Spells (p : Profile) (deeds : List Deed) (commands : List Command) (link : Link) :
    Prop where
  words : ∀ asked, Deed.Suits asked (Deed.latest deeds) →
    ∀ rest ∈ Dialogue.ahead p.authTls asked link.standing.stage,
      commands ++ rest ∈ Dialogue.words p.authTls asked
  asked : link.standing = .granted .awaitingUser →
    ∀ asked, Deed.Suits asked (Deed.latest deeds) → asked = true

theorem Standing.Fits.stage_ne {standing : Standing} {authTls secure : Bool}
    (h : standing.Fits authTls secure) : standing.stage ≠ .notConnected := by
  intro hs
  cases standing with
  | due stage | granted stage =>
    cases (show stage = .notConnected from hs)
    exact h
  | encrypted | ready => simp [stage] at hs

theorem Standing.hear_granted {line : String} {standing : Standing}
    (h : standing.hear line = some (.granted .awaitingUser)) :
    standing = .granted .awaitingUser ∨ standing = .due .awaitingUser ∧
      ∃ code, Session.judge line = .accepted code ∧ code ≠ Session.noPasswordNeeded := by
  cases standing with
  | granted stage =>
    cases h
    exact Or.inl rfl
  | encrypted | ready => simp [hear] at h
  | due stage =>
    refine Or.inr ?_
    simp only [hear] at h
    split at h
    next => split at h <;> simp at h
    next => simp at h
    next => simp at h
    next code hc =>
      cases stage with
      | awaitingUser =>
        refine ⟨rfl, code, hc, ?_⟩
        intro hcode
        simp [grant, hcode] at h
      | awaitingPwd =>
        simp only [grant] at h
        split at h <;> simp at h
      | _ => simp [grant] at h

namespace Wire

variable {p : Profile}

/-- Whatever is sent is the beginning of a word. -/
theorem Step.spells {deeds : List Deed} {commands : List Command} {w w' : Wire} {d : Deed}
    (h : Step p w d w') (spells : Deed.Spells p (Deed.latest deeds) commands)
    (hlink : ∀ link, w = .live link → link.Spells p deeds commands) :
    ∃ commands', Deed.Spells p (Deed.latest (deeds ++ [d])) commands' ∧
      (∀ link, w' = .live link → link.Spells p (deeds ++ [d]) commands') ∧
      (w' = .shut → commands' = commands ∧ ∀ asked,
        Deed.Suits asked (Deed.latest (deeds ++ [d])) → Deed.Suits asked (Deed.latest deeds)) := by
  have hlatest : (∀ c, d ≠ .opened c) → Deed.latest (deeds ++ [d]) = Deed.latest deeds ++ [d] :=
    Deed.latest_append deeds
  have earlier : (∀ c, d ≠ .opened c) → ∀ {asked},
      Deed.Suits asked (Deed.latest (deeds ++ [d])) → Deed.Suits asked (Deed.latest deeds) := by
    intro ho asked hs
    rw [hlatest ho] at hs
    exact hs.of_append
  have kept : (∀ c, d ≠ .opened c) → (∀ stream line, d ≠ .began stream line) →
      Deed.Spells p (Deed.latest (deeds ++ [d])) commands := by
    intro ho hb
    rw [hlatest ho]
    exact spells.quiet hb
  cases h with
  | opened w c =>
    have hempty : Deed.latest (deeds ++ [.opened c]) = [] := Deed.latest_append_opened deeds c
    refine ⟨[], ?_, ?_, (by simp)⟩
    · rw [hempty]
      exact ⟨rfl, by simp, by simp⟩
    · intro link hlive
      cases hlive
      refine ⟨?_, (by simp)⟩
      intro asked _ rest hr
      rw [← Dialogue.ahead_welcome]
      exact hr
  | @began link command stage permits _ =>
    obtain ⟨words, asked⟩ := hlink link rfl
    refine ⟨commands ++ [command], ?_, ?_, (by simp)⟩
    · rw [hlatest (by simp)]
      exact spells.began permits
    · intro later hlive
      cases hlive
      refine ⟨?_, (by simp)⟩
      intro b hs rest hr
      have hb := earlier (by simp) hs
      have hmem := words b hb _ (Dialogue.cons_mem_ahead permits (fun hg => asked hg b hb) hr)
      rw [List.append_assoc]
      exact hmem
  | @wrote link bytes rest _ =>
    refine ⟨commands, kept (by simp) (by simp), ?_, fun _ => ⟨rfl, fun _ => earlier (by simp)⟩⟩
    intro later hlive
    cases hlive
    obtain ⟨words, asked⟩ := hlink link rfl
    exact ⟨fun b hs => words b (earlier (by simp) hs), fun hg b hs => asked hg b (earlier (by simp) hs)⟩
  | @received link bytes _ _ =>
    refine ⟨commands, kept (by simp) (by simp), ?_, fun _ => ⟨rfl, fun _ => earlier (by simp)⟩⟩
    intro later hlive
    cases hlive
    obtain ⟨words, asked⟩ := hlink link rfl
    exact ⟨fun b hs => words b (earlier (by simp) hs), fun hg b hs => asked hg b (earlier (by simp) hs)⟩
  | @heard link line rest _ _ _ =>
    refine ⟨commands, kept (by simp) (by simp), ?_, fun _ => ⟨rfl, fun _ => earlier (by simp)⟩⟩
    intro later hl
    obtain ⟨words, asked⟩ := hlink link rfl
    obtain ⟨standing, hh, rfl⟩ := Link.of_move_live hl
    have hcode : ∀ b code, Deed.Suits b (Deed.latest (deeds ++ [.heard link.standing.stage
        (link.unread.take (link.unread.length - rest.length)) line])) →
        link.standing = .due .awaitingUser → Session.judge line = .accepted code →
        (b = true ↔ code ≠ Session.noPasswordNeeded) := by
      intro b code hs hd hc
      rw [hlatest (by simp), hd] at hs
      exact hs.code hc
    refine ⟨?_, ?_⟩
    · intro b hs tail ht
      refine words b (earlier (by simp) hs) tail ?_
      exact Dialogue.mem_ahead_of_hear hh (fun code hd hc => hcode b code hs hd hc) ht
    · intro hg b hs
      cases (show standing = .granted .awaitingUser from hg)
      rcases Standing.hear_granted hh with hsame | ⟨hd, code, hc, hne⟩
      · exact asked hsame b (earlier (by simp) hs)
      · exact (hcode b code hs hd hc).mpr hne
  | @secured link standing _ =>
    refine ⟨commands, kept (by simp) (by simp), ?_, fun _ => ⟨rfl, fun _ => earlier (by simp)⟩⟩
    intro later hlive
    cases hlive
    obtain ⟨words, _⟩ := hlink link rfl
    refine ⟨?_, (by simp)⟩
    intro b hs rest hr
    refine words b (earlier (by simp) hs) rest ?_
    rw [standing]
    exact hr
  | unsecured _ _ => exact ⟨commands, kept (by simp) (by simp), (by simp), fun _ => ⟨rfl, fun _ => earlier (by simp)⟩⟩

/-- The commands that have been sent on a connection are the beginning of a word. -/
theorem Runs.spells {deeds : List Deed} {w : Wire} (runs : Runs p deeds w) :
    ∃ commands, Deed.Spells p (Deed.latest deeds) commands ∧
      (∀ link, w = .live link → link.Spells p deeds commands) ∧
      ∀ asked, Deed.Suits asked (Deed.latest deeds) →
        ∃ rest, commands ++ rest ∈ Dialogue.words p.authTls asked := by
  induction runs with
  | start =>
    refine ⟨[], ⟨rfl, by simp, by simp⟩, nofun, fun asked _ => ?_⟩
    rw [← Dialogue.ahead_welcome]
    exact Dialogue.exists_ahead p.authTls asked nofun
  | @next deeds w w' d runs hs ih =>
    obtain ⟨commands, spells, hlink, hprefix⟩ := ih
    obtain ⟨commands', spells', hlink', hshut⟩ := hs.spells spells hlink
    refine ⟨commands', spells', hlink', fun asked suits => ?_⟩
    cases w' with
    | shut =>
      obtain ⟨rfl, hearlier⟩ := hshut rfl
      exact hprefix asked (hearlier asked suits)
    | live link =>
      -- A connection that stands can always be brought to the end of a word.
      have sound := (runs.next hs).sound
      obtain ⟨rest, hr⟩ := Dialogue.exists_ahead p.authTls asked (Standing.Fits.stage_ne sound)
      exact ⟨rest, (hlink' link rfl).words asked suits rest hr⟩

end Wire

end FtpControl
