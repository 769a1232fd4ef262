import FtpControl.Console
import FtpControl.Proofs.JsonPrinting
import FtpControl.Proofs.TimestampText

namespace FtpControl

namespace Entry

theorem takeModified_text (t : Timestamp) : takeModified (.string t.text) = .ok t := by
  simp [takeModified, Json.takeText, t.ofText?_text, bind, Except.bind, pure, Except.pure]

theorem takeChoice_name (kind : Kind) : Json.takeChoice kinds (.string kind.name) = .ok kind := by
  cases kind <;> rfl

theorem ofJson_toJson (e : Entry) : ofJson e.toJson = .ok e := by
  have hsize : Json.takeNatural 64 (.ofNat e.size.toNat) = .ok e.size.toNat :=
    Json.takeNatural_ofNat (by decide) e.size.toNat_lt
  rw [ofJson, toJson, Json.record_eq, Json.RecordShape.take]
  simp [Json.byKey_cons, Json.RecordShape.takeMembers, Json.RecordShape.memberName,
    Json.RecordShape.field?, shape, Json.takeText, takeChoice_name, hsize, takeModified_text, bind,
    Except.bind, pure, Except.pure]

theorem printed_toJson (e : Entry) : Json.Printed e.toJson := by
  refine Json.printed_record fun m hm => ?_
  simp only [List.mem_cons, List.not_mem_nil, or_false] at hm
  rcases hm with rfl | rfl | rfl | rfl
  · exact Json.printed_string _
  · exact Json.printed_string _
  · exact Json.printed_ofNat _
  · exact Json.printed_string _

end Entry

namespace Event

theorem takeEntries_list (entries : List Entry) :
    takeEntries (.list (entries.map Entry.toJson)) = .ok entries := by
  have hmap : (entries.map Entry.toJson).mapM Entry.ofJson = .ok entries := by
    induction entries with
    | nil => rfl
    | cons e entries ih => simp [List.mapM_cons, Entry.ofJson_toJson, ih, bind, Except.bind, pure, Except.pure]
  simp [takeEntries, Json.list, hmap, bind, Except.bind, pure, Except.pure]

theorem ofJson_toJson (event : Event) : ofJson event.toJson = .ok event := by
  cases event with
  | listing entries =>
    have hdata := takeEntries_list entries
    have hkind : Json.takeChoice kinds (.string "directoryListing") = .ok .listing := rfl
    rw [toJson, Json.record_eq, ofJson]
    simp [Json.byKey_cons, takeMembers, Json.RecordShape.memberName, Draft.take, hkind, ofData, hdata,
      Draft.finish, bind, Except.bind, Functor.map, Except.map]
  | _ => rfl

theorem printed_toJson (event : Event) : Json.Printed event.toJson := by
  have text : ∀ kind data, Json.Printed (.record [("type", .string kind), ("data", .string data)]) :=
    fun kind data => Json.printed_record (by simp [Json.printed_string])
  have bare : ∀ kind, Json.Printed (.record [("type", .string kind)]) := fun kind =>
    Json.printed_record (by simp [Json.printed_string])
  cases event with
  | log line => exact text _ line
  | connected => exact bare _
  | idle => exact bare _
  | error message => exact text _ message
  | fatal message => exact text _ message
  | directory path => exact text _ path
  | listing entries =>
    have hentries : Json.Printed (.list (entries.map Entry.toJson)) := Json.printed_list fun item hitem => by
      obtain ⟨e, -, rfl⟩ := List.mem_map.mp hitem
      exact e.printed_toJson
    exact Json.printed_record (by simp [Json.printed_string, hentries])

end Event

namespace Console

/-- What the program writes for the events: their lines, each with a line feed behind it. -/
def output (json : Bool) (events : List Event) : List Char :=
  (events.flatMap (lines json)).flatMap fun line => line.toList ++ ['\n']

theorem intercalate_lines (lines : List String) :
    ['\n'].intercalate (lines.map String.toList ++ [[]]) =
      lines.flatMap fun line => line.toList ++ ['\n'] := by
  induction lines with
  | nil => rfl
  | cons line lines ih =>
    rw [List.map_cons, List.cons_append, List.intercalate_cons_of_ne_nil (by simp), ih]
    simp

theorem splitOn_lines {lines : List String} (h : ∀ line ∈ lines, '\n' ∉ line.toList) :
    (lines.flatMap fun line => line.toList ++ ['\n']).splitOn '\n' = lines.map String.toList ++ [[]] := by
  have hpieces : ∀ piece ∈ lines.map String.toList ++ [[]], '\n' ∉ piece := by
    simpa [or_imp, forall_and] using h
  rw [← intercalate_lines, List.splitOn_intercalate _ hpieces (by simp)]

/-- Every event is printed on one line, and the lines of the output are read as the events. -/
theorem events_from_lines (events : List Event) :
    ∃ printed : List String, events.map (lines true) = printed.map (fun line => [line]) ∧
      (output true events).splitOn '\n' = printed.map String.toList ++ [[]] ∧
      printed.map (fun line => Json.takeAll Event.ofJson line.toList) = events.map .ok := by
  refine ⟨events.map fun event => event.toJson.line, by simp [lines], ?_, ?_⟩
  · have hlines : events.flatMap (lines true) = events.map fun event => event.toJson.line :=
      List.map_eq_flatMap.symm
    rw [output, hlines]
    refine splitOn_lines fun line hline => ?_
    obtain ⟨event, -, rfl⟩ := List.mem_map.mp hline
    simpa [Json.line] using event.printed_toJson.one_line
  · rw [List.map_map]
    refine List.map_congr_left fun event _ => ?_
    rw [Function.comp_apply, Json.line, String.toList_ofList, event.printed_toJson.document.takeAll,
      event.ofJson_toJson]

end Console

end FtpControl
