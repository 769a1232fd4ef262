import FtpControl.Proofs.Continuations

namespace FtpControl

namespace Listing

def placeholder : String :=
  "(directory list was here)"

def rows (lines : List String) : List String :=
  lines.filter fun line => (Reply.ofLine? line.toList).isNone

def notes (lines : List String) : List String :=
  lines.filter fun line => (Reply.ofLine? line.toList).any fun reply => !reply.last

/-- What is told of a listing of these lines. -/
def report (today : Date) (isStrict : Bool) (lines : List String) : List Event :=
  match read today isStrict lines with
  | .ok entries => [.listing entries]
  | .error failure => [.log failure.message, .error failure.message]

/-- All that is told of these lines, none of which ends a reply: one line for all the rows together, if
there are any, and the lines with which the reply goes on. -/
structure Remarks (lines : List String) (told : List Event) : Prop where
  once : told.count (.log placeholder) = if rows lines = [] then 0 else 1
  others : told.filter (· ≠ .log placeholder) = (notes lines).map .log

theorem rows_append (lines more : List String) : rows (lines ++ more) = rows lines ++ rows more :=
  List.filter_append lines more

theorem notes_append (lines more : List String) : notes (lines ++ more) = notes lines ++ notes more :=
  List.filter_append lines more

variable {lines : List String} {line : String} {told : List Event}

theorem rows_single (shapeless : Reply.ofLine? line.toList = none) :
    rows [line] = [line] ∧ notes [line] = [] := by
  simp [rows, notes, shapeless]

theorem notes_single (goes_on : Reply.GoesOn line) : rows [line] = [] ∧ notes [line] = [line] := by
  obtain ⟨reply, hreply, hlast⟩ := goes_on
  simp [rows, notes, hreply, hlast]

theorem Remarks.row (h : Remarks lines told) (shapeless : Reply.ofLine? line.toList = none) :
    Remarks (lines ++ [line]) (told ++ if (rows lines).isEmpty then [.log placeholder] else []) := by
  obtain ⟨hrows, hnotes⟩ := rows_single shapeless
  constructor
  · rw [rows_append, hrows, List.count_append, h.once]
    by_cases none : rows lines = [] <;> simp [none]
  · rw [notes_append, hnotes, List.append_nil, List.filter_append, h.others]
    split <;> simp

theorem Remarks.note (h : Remarks lines told) (goes_on : Reply.GoesOn line) :
    Remarks (lines ++ [line]) (told ++ [.log line]) := by
  obtain ⟨hrows, hnotes⟩ := notes_single goes_on
  have hne : line ≠ placeholder := by
    rintro rfl
    obtain ⟨reply, hreply, _⟩ := goes_on
    have shapeless : Reply.ofLine? placeholder.toList = none := by decide
    rw [shapeless] at hreply
    cases hreply
  constructor
  · rw [rows_append, hrows, List.append_nil, List.count_append, h.once]
    simp [hne]
  · rw [notes_append, hnotes, List.filter_append, h.others]
    simp [hne]

end Listing

namespace Session

open Listing (placeholder rows notes report Remarks)

variable {s : Session} {line : String}

theorem handleLine_stat (today : Date) (stage : s.stage = .awaitingStat) (line : String) :
    s.handleLine today line = s.handleStat today line := by
  unfold handleLine
  rw [stage]

theorem handleLine_row (today : Date) (stage : s.stage = .awaitingStat)
    (hopen : s.transport.isOpen = true) (shapeless : Reply.ofLine? line.toList = none) :
    s.handleLine today line = { s with
      transport := s.transport.push .readLine
      listing := s.listing.push line
      news := s.news ++ if s.listing.isEmpty then [.log placeholder] else [] } := by
  have hjudge := judge_invalid_iff.mpr shapeless
  rw [handleLine_stat today stage]
  unfold handleStat
  rw [if_pos hjudge]
  by_cases empty : s.listing.isEmpty = true
  · simp only [empty, ↓reduceIte]
    exact readNext_of_open hopen
  · simp only [empty, ↓reduceIte, Bool.false_eq_true, List.append_nil]
    exact readNext_of_open hopen

theorem afterStat_eq (today : Date) (s : Session) : s.afterStat today = { s with
    stage := .loggedIn
    listing := #[]
    news := s.news ++ report today s.profile.strictListing s.listing.toList } := by
  unfold afterStat report
  dsimp only [enter]
  cases Listing.read today s.profile.strictListing s.listing.toList with
  | ok entries => rfl
  | error failure => simp [log, emit]

theorem handleLine_granted (today : Date) (stage : s.stage = .awaitingStat) {code : UInt16}
    (accepted : judge line = .accepted code) :
    s.handleLine today line = { s with
      stage := .loggedIn
      listing := #[]
      news := s.news ++ .log line :: report today s.profile.strictListing s.listing.toList } := by
  rw [handleLine_stat today stage]
  unfold handleStat
  rw [if_neg (by simp [accepted])]
  simp only [accept, accepted, afterStat_eq]
  simp [log, emit]

theorem handleLine_refused (today : Date) (stage : s.stage = .awaitingStat) {message : String}
    (refused : judge line = .refused message) :
    s.handleLine today line = (s.log line).fail message := by
  rw [handleLine_stat today stage]
  unfold handleStat
  rw [if_neg (by simp [refused])]
  simp only [accept, refused]

/-- Until a reply ends, the session stays where it is. It has the rows in store, and it has asked for one
more line for each that has come. -/
theorem hears_gathers (stage : s.stage = .awaitingStat) (hopen : s.transport.isOpen = true)
    (empty : s.listing = #[]) {lines : List (Date × String)}
    (open_ended : ∀ line ∈ lines, ¬Reply.Ends line.2) :
    ∃ told, Remarks (lines.map Prod.snd) told ∧ s.hears lines = { s with
      transport := { s.transport with
        queue := s.transport.queue ++ List.replicate lines.length .readLine }
      listing := (rows (lines.map Prod.snd)).toArray
      news := s.news ++ told } := by
  -- The last line is taken off: what is in store before it tells whether a row has come already.
  induction lines using List.reverseRecOn with
  | nil => exact ⟨[], ⟨rfl, rfl⟩, by simp [hears, rows, ← empty]⟩
  | append_singleton lines last ih =>
    obtain ⟨today, line⟩ := last
    obtain ⟨told, remarks, hlines⟩ := ih fun other ho => open_ended other (List.mem_append_left _ ho)
    have stage' : (s.hears lines).stage = .awaitingStat := by rw [hlines]; exact stage
    have hopen' : (s.hears lines).transport.isOpen = true := by rw [hlines]; exact hopen
    rw [hears_append, hears_singleton, List.map_append, List.map_singleton]
    cases hshape : Reply.ofLine? line.toList with
    | none =>
      refine ⟨_, remarks.row hshape, ?_⟩
      rw [handleLine_row today stage' hopen' hshape, hlines, Listing.rows_append,
        (Listing.rows_single hshape).1]
      simp [Transport.push, List.replicate_add, List.isEmpty_toArray]
    | some reply =>
      have goes_on : Reply.GoesOn line := by
        refine ⟨reply, hshape, ?_⟩
        by_contra hlast
        exact open_ended (today, line) (by simp) ⟨reply, hshape, by simpa using hlast⟩
      refine ⟨_, remarks.note goes_on, ?_⟩
      rw [handleLine_noted today (by rw [stage']; rfl) hopen' goes_on, hlines, Listing.rows_append,
        (Listing.notes_single goes_on).1]
      simp [noting, List.replicate_add]

/-- Until a reply ends, the rows are gathered, one line is asked for on each that comes, and only the notes
are logged, with one line for all the rows. The end of a good reply makes the session ready and tells what
the rows are read as, or why they cannot be read. The end of any other tears it down, rows and all. -/
theorem listing_gathered (stage : s.stage = .awaitingStat) (hopen : s.transport.isOpen = true)
    (empty : s.listing = #[]) {lines : List (Date × String)}
    (open_ended : ∀ line ∈ lines, ¬Reply.Ends line.2) :
    ∃ told, Remarks (lines.map Prod.snd) told ∧
      s.hears lines = { s with
        transport := { s.transport with
          queue := s.transport.queue ++ List.replicate lines.length .readLine }
        listing := (rows (lines.map Prod.snd)).toArray
        news := s.news ++ told } ∧
      ∀ (today : Date) (close : String) (reply : Reply), Reply.ofLine? close.toList = some reply →
        reply.last = true →
          (reply.Favourable → s.hears (lines ++ [(today, close)]) = { s.hears lines with
            stage := .loggedIn
            listing := #[]
            news := s.news ++ told ++ .log close ::
              report today s.profile.strictListing (rows (lines.map Prod.snd)) }) ∧
          (¬reply.Favourable → (s.hears (lines ++ [(today, close)])).stage = .notConnected ∧
            (s.hears (lines ++ [(today, close)])).listing = #[] ∧
            ∃ message, (s.hears (lines ++ [(today, close)])).news =
              s.news ++ told ++ [.log close, .fatal message]) := by
  obtain ⟨told, remarks, hlines⟩ := hears_gathers stage hopen empty open_ended
  refine ⟨told, remarks, hlines, fun today close reply hreply last => ?_⟩
  have stage' : (s.hears lines).stage = .awaitingStat := by rw [hlines]; exact stage
  rw [hears_append, hears_singleton]
  constructor
  · intro good
    rw [handleLine_granted today stage' (judge_accepted hreply last good), hlines]
  · intro bad
    obtain ⟨message, refused⟩ := judge_refused hreply last bad
    rw [handleLine_refused today stage' refused]
    refine ⟨rfl, rfl, message, ?_⟩
    simp [hlines, Session.fail, Session.reset, Session.log, Session.emit]

/-- A note between two rows, and a row that is no entry. -/
theorem listing_gathered_around_note :
    ∃ (s : Session) (today : Date) (lines : List (Date × String)), s.stage = .awaitingStat ∧
      s.transport.isOpen = true ∧ s.listing = #[] ∧ (∀ line ∈ lines, ¬Reply.Ends line.2) ∧
      lines.map Prod.snd = ["total 8", "450- Busy", "Permission denied"] ∧
      (s.hears lines).listing = #["total 8", "Permission denied"] ∧
      (s.hears lines).transport.queue = [.readLine, .readLine, .readLine] ∧
      (s.hears (lines ++ [(today, "226 Done")])).stage = .loggedIn ∧
      (s.hears (lines ++ [(today, "226 Done")])).news =
        [.log placeholder, .log "450- Busy", .log "226 Done",
          .log "Could not parse directory list entry 'Permission denied': No month token found.",
          .error "Could not parse directory list entry 'Permission denied': No month token found."] := by
  let today : Date := ⟨2024, 3, 10, by decide⟩
  let s : Session :=
    { create { host := "localhost", username := "user", password := "secret" } true with
      stage := .awaitingStat
      transport := { trust := {}, stream := some ⟨0, false⟩ } }
  let lines : List (Date × String) :=
    [(today, "total 8"), (today, "450- Busy"), (today, "Permission denied")]
  have open_ended : ∀ line ∈ lines, ¬Reply.Ends line.2 := by
    have none : ∀ line ∈ lines, (Reply.ofLine? line.2.toList).all (!·.last) = true := by decide +kernel
    rintro line hl ⟨reply, hreply, last⟩
    simpa [hreply, last] using none line hl
  obtain ⟨told, remarks, hlines, ends⟩ := listing_gathered (s := s) rfl rfl rfl open_ended
  obtain ⟨good, _⟩ := ends today "226 Done" ⟨226, true, "Done".toList⟩ (by decide +kernel) rfl
  have hend := good (Or.inl (by decide))
  have hrows : rows (lines.map Prod.snd) = ["total 8", "Permission denied"] := by decide +kernel
  have htold : told = [.log placeholder, .log "450- Busy"] := by
    have hnews : (s.hears lines).news = [.log placeholder, .log "450- Busy"] := by decide +kernel
    rw [hlines] at hnews
    exact hnews
  have hreport : report today s.profile.strictListing ["total 8", "Permission denied"] =
      [.log "Could not parse directory list entry 'Permission denied': No month token found.",
        .error "Could not parse directory list entry 'Permission denied': No month token found."] := by
    decide +kernel
  refine ⟨s, today, lines, rfl, rfl, rfl, open_ended, rfl, ?_, ?_, ?_, ?_⟩
  · rw [hlines, hrows]
  · rw [hlines]
    rfl
  · rw [hend]
  · rw [hend, htold, hrows, hreport]
    rfl

end Session

end FtpControl
