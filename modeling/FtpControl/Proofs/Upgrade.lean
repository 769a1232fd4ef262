import FtpControl.Proofs.Simulation

namespace FtpControl

namespace Deed

/-- What a deed makes of the bytes in store, each kept with the stream that it was received on. -/
def store (held : List (UInt8 × Stream)) : Deed → List (UInt8 × Stream)
  | .opened _ => []
  | .received stream bytes => held ++ bytes.map fun byte => (byte, stream)
  | .heard _ bytes _ => held.drop bytes.length
  | _ => held

def held (deeds : List Deed) : List (UInt8 × Stream) :=
  deeds.foldl store []

def isHeard : Deed → Bool
  | .heard _ _ _ => true
  | _ => false

/-- Each line heard in `after` is made of bytes that have come on the encrypted stream. -/
def Sealed (c : Nat) (before after : List Deed) : Prop :=
  ∀ earlier stage bytes line later, after = earlier ++ .heard stage bytes line :: later →
    ∀ x ∈ (held (before ++ .secured c :: earlier)).take bytes.length, x.2 = ⟨c, true⟩

theorem held_append (deeds : List Deed) (d : Deed) : held (deeds ++ [d]) = store (held deeds) d := by
  simp [held]

end Deed

namespace Wire

variable {p : Profile}

theorem heard_bytes {link : Link} {line : String} {rest : List UInt8}
    (h : LineBuffer.takeLine? link.unread = some (line, rest)) :
    ∃ bytes, link.unread.take (link.unread.length - rest.length) = bytes ∧
      link.unread = bytes ++ rest ∧ bytes ≠ [] := by
  obtain ⟨head, hsplit, _, _⟩ := LineBuffer.takeLine?_eq_some h
  have hall : link.unread = (head ++ [LineBuffer.feed]) ++ rest := by simp [hsplit]
  refine ⟨head ++ [LineBuffer.feed], ?_, hall, by simp⟩
  have hlength : link.unread.length - rest.length = (head ++ [LineBuffer.feed]).length := by
    rw [hall, List.length_append]
    omega
  rw [hlength, hall]
  exact List.take_left

theorem Runs.held_bytes {deeds : List Deed} {w : Wire} (runs : Runs p deeds w) :
    ∀ link, w = .live link → (Deed.held deeds).map Prod.fst = link.unread := by
  induction runs with
  | start => nofun
  | next runs hs ih =>
    intro later hw
    rw [Deed.held_append]
    cases hs with
    | opened _ _ =>
      cases hw
      rfl
    | began _ _ | wrote _ | secured _ _ =>
      cases hw
      have hlink := ih _ rfl
      exact hlink
    | @received link bytes _ _ =>
      cases hw
      have hbytes : (bytes.map fun byte => (byte, link.stream)).map Prod.fst = bytes := by
        simp [Function.comp_def]
      rw [Deed.store, List.map_append, ih link rfl, hbytes]
    | @heard link line rest _ _ hl =>
      obtain ⟨bytes, hb, hall, _⟩ := heard_bytes hl
      obtain ⟨standing, hh, rfl⟩ := Link.of_move_live hw
      rw [Deed.store, List.map_drop, ih link rfl, hb, hall]
      exact List.drop_left
    | unsecured _ _ => simp at hw

/-- Before the handshake every byte in store has come in plain. -/
theorem Runs.held_plain {deeds : List Deed} {w : Wire} (runs : Runs p deeds w) :
    ∀ link, w = .live link → link.stream.secure = false →
      ∀ x ∈ Deed.held deeds, x.2 = link.stream := by
  induction runs with
  | start => nofun
  | next runs hs ih =>
    intro later hw hplain x hx
    rw [Deed.held_append] at hx
    cases hs with
    | opened _ _ => simp [Deed.store] at hx
    | began _ _ | wrote _ =>
      cases hw
      have hlink := ih _ rfl hplain x hx
      exact hlink
    | secured _ _ =>
      cases hw
      simp at hplain
    | @received link bytes _ _ =>
      cases hw
      rcases List.mem_append.mp hx with hx | hx
      · exact ih link rfl hplain x hx
      · obtain ⟨byte, _, rfl⟩ := List.mem_map.mp hx
        rfl
    | @heard link line rest _ _ hl =>
      obtain ⟨standing, hh, rfl⟩ := Link.of_move_live hw
      exact ih link rfl hplain x (List.mem_of_mem_drop hx)
    | unsecured _ _ => simp at hw

theorem Runs.stream_after {before earlier : List Deed} {c : Nat} {w : Wire}
    (runs : Runs p (before ++ .secured c :: earlier) w) (ho : ∀ c', .opened c' ∉ earlier) :
    ∀ link, w = .live link → link.stream = ⟨c, true⟩ := by
  induction earlier using List.reverseRecOn generalizing w with
  | nil =>
    intro later hw
    obtain ⟨u, _, step⟩ := runs.of_append_singleton
    cases step with
    | secured _ _ =>
      cases hw
      rfl
  | append_singleton earlier d ih =>
    rintro later rfl
    rw [← List.cons_append, ← List.append_assoc] at runs
    obtain ⟨u, hu, step⟩ := runs.of_append_singleton
    have hbefore := ih hu fun c' hm => ho c' (List.mem_append_left _ hm)
    rcases step.live_cases with ⟨c', rfl, _⟩ | ⟨link, hl, _, _, hstream⟩
    · exact absurd (List.mem_append_right _ (List.mem_singleton_self _)) (ho c')
    · have hlink := hbefore link hl
      rcases hstream with ⟨hsame, _⟩ | ⟨hsecure, _⟩
      · exact hsame.trans hlink
      · rw [hsecure, hlink]

/-- After the handshake the store begins with what is left from before it. -/
theorem Runs.held_after {before earlier : List Deed} {c : Nat} {w : Wire}
    (runs : Runs p (before ++ .secured c :: earlier) w) (ho : ∀ c', .opened c' ∉ earlier) :
    ∃ kept fresh, Deed.held (before ++ .secured c :: earlier) = kept ++ fresh ∧
      kept <:+ Deed.held before ∧ (∀ x ∈ fresh, x.2 = ⟨c, true⟩) ∧
      ((∀ d ∈ earlier, d.isHeard = false) → kept = Deed.held before) := by
  induction earlier using List.reverseRecOn generalizing w with
  | nil =>
    refine ⟨Deed.held before, [], ?_, List.suffix_refl _, by simp, fun _ => rfl⟩
    rw [Deed.held_append, List.append_nil]
    rfl
  | append_singleton earlier d ih =>
    have hsplit : before ++ .secured c :: (earlier ++ [d]) = before ++ .secured c :: earlier ++ [d] := by
      simp
    rw [hsplit] at runs ⊢
    obtain ⟨u, hu, step⟩ := runs.of_append_singleton
    obtain ⟨kept, fresh, hheld, hsuffix, hfresh, hkept⟩ :=
      ih hu fun c' hm => ho c' (List.mem_append_left _ hm)
    rw [Deed.held_append, hheld]
    cases step with
    | opened _ c' => exact absurd (by simp) (ho c')
    | began _ _ | wrote _ | secured _ _ | unsecured _ _ =>
      refine ⟨kept, fresh, rfl, hsuffix, hfresh, fun hn => hkept fun d hd => ?_⟩
      exact hn d (List.mem_append_left _ hd)
    | @received link bytes _ _ =>
      have hstream := hu.stream_after (fun c' hm => ho c' (List.mem_append_left _ hm)) link rfl
      refine ⟨kept, fresh ++ bytes.map fun byte => (byte, link.stream), ?_, hsuffix, ?_, ?_⟩
      · rw [Deed.store, List.append_assoc]
      · intro x hx
        rcases List.mem_append.mp hx with hx | hx
        · exact hfresh x hx
        · obtain ⟨byte, _, rfl⟩ := List.mem_map.mp hx
          exact hstream
      · exact fun hn => hkept fun d hd => hn d (List.mem_append_left _ hd)
    | @heard link line rest _ _ hl =>
      refine ⟨kept.drop _, fresh.drop _, List.drop_append, ?_, ?_, ?_⟩
      · exact (List.drop_suffix _ _).trans hsuffix
      · exact fun x hx => hfresh x (List.mem_of_mem_drop hx)
      · intro hn
        have hd := hn _ (List.mem_append_right _ (List.mem_singleton_self _))
        simp [Deed.isHeard] at hd

theorem Runs.step_after {before after earlier later rest : List Deed} {c : Nat} {d : Deed} {w : Wire}
    (runs : Runs p (before ++ .secured c :: (after ++ rest)) w) (ho : ∀ c', .opened c' ∉ after)
    (hafter : after = earlier ++ d :: later) :
    (∀ c', .opened c' ∉ earlier) ∧
      ∃ u v, Runs p (before ++ .secured c :: earlier) u ∧ Step p u d v := by
  have hsplit : before ++ .secured c :: (after ++ rest) =
      (before ++ .secured c :: earlier) ++ d :: (later ++ rest) := by
    rw [hafter]
    simp
  rw [hsplit] at runs
  refine ⟨?_, runs.step_at⟩
  intro c' hm
  apply ho c'
  rw [hafter]
  exact List.mem_append_left _ hm

theorem Runs.drained {before after rest : List Deed} {c : Nat} {w : Wire}
    (runs : Runs p (before ++ .secured c :: (after ++ rest)) w) (ho : ∀ c', .opened c' ∉ after)
    (plain : ∀ x ∈ Deed.held before, x.2 = ⟨c, false⟩) (sealed : Deed.Sealed c before after) :
    Deed.held before = [] ∨ ∀ d ∈ after, d.isHeard = false := by
  cases hfind : after.find? Deed.isHeard with
  | none =>
    refine Or.inr fun d hd => ?_
    have hn := List.find?_eq_none.mp hfind d hd
    simpa using hn
  | some first =>
    obtain ⟨hfirst, earlier, later, hafter, hearlier⟩ := List.find?_eq_some_iff_append.mp hfind
    cases first with
    | heard stage bytes line =>
      have hquiet : ∀ d ∈ earlier, d.isHeard = false := fun d hd => by simpa using hearlier d hd
      obtain ⟨hopen, u, v, hu, step⟩ := runs.step_after ho hafter
      obtain ⟨kept, fresh, hheld, _, _, hkept⟩ := hu.held_after hopen
      rw [hkept hquiet] at hheld
      have hbytes : bytes ≠ [] := by
        cases step with
        | heard _ _ hl =>
          obtain ⟨used, hused, _, hne⟩ := heard_bytes hl
          rw [hused]
          exact hne
      -- A byte in store would have come in plain, and the line would begin with it.
      refine Or.inl (Classical.byContradiction fun hne => ?_)
      obtain ⟨x, store, hx⟩ := List.exists_cons_of_ne_nil hne
      obtain ⟨b, bs, hb⟩ := List.exists_cons_of_ne_nil hbytes
      have hin : x ∈ (Deed.held (before ++ .secured c :: earlier)).take bytes.length := by
        rw [hheld, hx, hb]
        simp
      have hsecure := sealed earlier stage bytes line later hafter x hin
      have hplain := plain x (by rw [hx]; exact List.mem_cons_self)
      rw [hsecure] at hplain
      simp at hplain
    | opened _ | began _ _ | wrote _ _ | received _ _ | secured _ | unsecured _ =>
      simp [Deed.isHeard] at hfirst

/-- With nothing in store at the handshake, all that is read afterwards has come encrypted. -/
theorem Runs.sealed {before after rest : List Deed} {c : Nat} {w : Wire}
    (runs : Runs p (before ++ .secured c :: (after ++ rest)) w) (ho : ∀ c', .opened c' ∉ after)
    (drained : Deed.held before = []) : Deed.Sealed c before after := by
  intro earlier stage bytes line later hafter x hx
  obtain ⟨hopen, u, v, hu, _⟩ := runs.step_after ho hafter
  obtain ⟨kept, fresh, hheld, hsuffix, hfresh, _⟩ := hu.held_after hopen
  rw [drained] at hsuffix
  rw [hheld, List.suffix_nil.mp hsuffix, List.nil_append] at hx
  exact hfresh x (List.mem_of_mem_take hx)

theorem Runs.heard_held {before after rest earlier later : List Deed} {c : Nat} {w : Wire}
    {stage : Stage} {bytes : List UInt8} {line : String}
    (runs : Runs p (before ++ .secured c :: (after ++ rest)) w) (ho : ∀ c', .opened c' ∉ after)
    (hafter : after = earlier ++ .heard stage bytes line :: later) :
    ((Deed.held (before ++ .secured c :: earlier)).take bytes.length).map Prod.fst = bytes := by
  obtain ⟨_, u, v, hu, step⟩ := runs.step_after ho hafter
  cases step with
  | @heard link line rest' _ _ hl =>
    obtain ⟨used, hused, hall, _⟩ := heard_bytes hl
    rw [List.map_take, hu.held_bytes link rfl, hused, hall]
    exact List.take_left

end Wire

namespace Runner

variable {p : Profile}

/-- What is left in store at a handshake has come in plain. On the connection from there on, every
line is made of bytes that have come encrypted, if and only if nothing is left or no line is read. -/
theorem sealed_iff_drained {hasRoots : Bool} {moves : List Move} {r : Runner}
    {before after rest : List Deed} {c : Nat} (run : Run (start p hasRoots) moves r)
    (he : deeds moves = before ++ .secured c :: (after ++ rest)) (ho : ∀ c', .opened c' ∉ after) :
    (∀ earlier stage bytes line later, after = earlier ++ .heard stage bytes line :: later →
      ((Deed.held (before ++ .secured c :: earlier)).take bytes.length).map Prod.fst = bytes) ∧
    (∀ x ∈ Deed.held before, x.2 = ⟨c, false⟩) ∧
    (Deed.Sealed c before after ↔
      Deed.held before = [] ∨ ∀ d ∈ after, d.isHeard = false) := by
  obtain ⟨w, runs, _⟩ := run_matches run
  rw [he] at runs
  have plain : ∀ x ∈ Deed.held before, x.2 = ⟨c, false⟩ := by
    obtain ⟨u, v, hu, step⟩ := runs.step_at
    have sound := hu.sound
    cases step with
    | @secured link standing _ =>
      rw [Wire.Sound, standing] at sound
      intro x hx
      rw [hu.held_plain link rfl sound.2 x hx, ← sound.2]
  refine ⟨?_, plain, runs.drained ho plain, ?_⟩
  · intro earlier stage bytes line later hafter
    exact runs.heard_held ho hafter
  · rintro (drained | quiet)
    · exact runs.sealed ho drained
    · intro earlier stage bytes line later hafter
      have hm : .heard stage bytes line ∈ after := by
        rw [hafter]
        exact List.mem_append_right _ List.mem_cons_self
      have hq := quiet _ hm
      simp [Deed.isHeard] at hq

theorem sealed_of_drained_login :
    ∃ p moves r before after, p.authTls = true ∧ Run (start p true) moves r ∧
      deeds moves = before ++ .secured 0 :: (after ++ []) ∧
      .heard .awaitingPbsz (Utf8.encode "200 Ok\r\n".toList) "200 Ok" ∈ after ∧
      Deed.Sealed 0 before after := by
  let p : Profile := { host := "localhost", username := "user", password := "secret" }
  let inputs := Input.welcomed 0 "220 Ready\r\n" ++ Input.exchanged .authTls "234 Proceed\r\n" ++
    Input.shaken ++ Input.exchanged .pbszZero "200 Ok\r\n"
  let bytes (text : String) : List UInt8 := Utf8.encode text.toList
  let before : List Deed := [.opened 0, .received ⟨0, false⟩ (bytes "220 Ready\r\n"),
    .heard .awaitingWelcome (bytes "220 Ready\r\n") "220 Ready", .began ⟨0, false⟩ "AUTH TLS",
    .wrote ⟨0, false⟩ (bytes "AUTH TLS\r\n"), .received ⟨0, false⟩ (bytes "234 Proceed\r\n"),
    .heard .awaitingAuthTls (bytes "234 Proceed\r\n") "234 Proceed"]
  let after : List Deed := [.began ⟨0, true⟩ "PBSZ 0", .wrote ⟨0, true⟩ (bytes "PBSZ 0\r\n"),
    .received ⟨0, true⟩ (bytes "200 Ok\r\n"), .heard .awaitingPbsz (bytes "200 Ok\r\n") "200 Ok"]
  have h : (rehearse p inputs).map (fun x => deeds x.1) =
      some (before ++ .secured 0 :: (after ++ [])) := by decide +kernel
  obtain ⟨⟨moves, r⟩, hplay, he⟩ := Option.map_eq_some_iff.mp h
  have run := run_of_play hplay
  have ho : ∀ c', .opened c' ∉ after := by simp [after]
  have drained : Deed.held before = [] := by decide +kernel
  have sealed := (sealed_iff_drained run he ho).2.2.mpr (Or.inl drained)
  exact ⟨p, moves, r, before, after, rfl, run, he, by simp [after, bytes], sealed⟩

/-- A line in plain behind the reply to `AUTH TLS` is read as the reply to `PBSZ`. -/
theorem not_sealed_behind_reply :
    ∃ p moves r before after, p.authTls = true ∧ Run (start p true) moves r ∧
      deeds moves = before ++ .secured 0 :: after ∧
      (∀ x ∈ Deed.held before, x.2 = ⟨0, false⟩) ∧
      Deed.held before ≠ [] ∧
      .heard .awaitingPbsz ((Deed.held before).map Prod.fst) "200 injected" ∈ after ∧
      .began ⟨0, true⟩ "USER user" ∈ after ∧ ¬ Deed.Sealed 0 before after := by
  let p : Profile := { host := "localhost", username := "user", password := "secret" }
  let inputs := Input.welcomed 0 "220 FTPS ready\r\n" ++
    Input.exchanged .authTls "234 Proceed\r\n200 injected\r\n" ++ Input.shaken ++
    [.proceed, .proceed, .answer (.took 8), .proceed, .proceed, .proceed, .proceed]
  let bytes (text : String) : List UInt8 := Utf8.encode text.toList
  let before : List Deed := [.opened 0, .received ⟨0, false⟩ (bytes "220 FTPS ready\r\n"),
    .heard .awaitingWelcome (bytes "220 FTPS ready\r\n") "220 FTPS ready",
    .began ⟨0, false⟩ "AUTH TLS", .wrote ⟨0, false⟩ (bytes "AUTH TLS\r\n"),
    .received ⟨0, false⟩ (bytes "234 Proceed\r\n200 injected\r\n"),
    .heard .awaitingAuthTls (bytes "234 Proceed\r\n") "234 Proceed"]
  let earlier : List Deed := [.began ⟨0, true⟩ "PBSZ 0", .wrote ⟨0, true⟩ (bytes "PBSZ 0\r\n")]
  let injected := bytes "200 injected\r\n"
  let later : List Deed := [.began ⟨0, true⟩ "USER user"]
  let after := earlier ++ .heard .awaitingPbsz injected "200 injected" :: later
  have h : (rehearse p inputs).map (fun x => deeds x.1) = some (before ++ .secured 0 :: after) := by
    decide +kernel
  obtain ⟨⟨moves, r⟩, hplay, he⟩ := Option.map_eq_some_iff.mp h
  have hheld : Deed.held before = injected.map fun byte => (byte, ⟨0, false⟩) := by decide +kernel
  have hbytes : (Deed.held before).map Prod.fst = injected := by decide +kernel
  have hplain : ∀ x ∈ Deed.held before, x.2 = ⟨0, false⟩ := by
    intro x hx
    rw [hheld] at hx
    obtain ⟨byte, _, rfl⟩ := List.mem_map.mp hx
    rfl
  have hfirst : (⟨50, 0, false⟩ : UInt8 × Stream) ∈
      (Deed.held (before ++ .secured 0 :: earlier)).take injected.length := by decide +kernel
  refine ⟨p, moves, r, before, after, rfl, run_of_play hplay, he, hplain, ?_, ?_, ?_, ?_⟩
  · intro hnil
    rw [hnil] at hbytes
    exact absurd hbytes (by decide +kernel)
  · rw [hbytes]
    simp [after]
  · simp [after, later]
  · intro sealed
    have hsecure := sealed earlier _ injected _ later rfl _ hfirst
    simp at hsecure

end Runner

end FtpControl
