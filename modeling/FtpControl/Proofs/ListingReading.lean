import FtpControl.Listing.Batch
import FtpControl.Proofs.Columns

namespace FtpControl

theorem sharp_of_mem_wordStarts {inWord : Bool} {line col : List Char} (h : col ∈ wordStarts inWord line) :
    StartsSharp col := by
  induction line generalizing inWord with
  | nil => simp [wordStarts] at h
  | cons c cs ih =>
    unfold wordStarts at h
    split at h
    next => exact ih h
    next sharp =>
      split at h
      next => exact ih h
      next =>
        rcases List.mem_cons.mp h with rfl | h
        · exact ⟨c, cs, rfl, by simpa using sharp⟩
        · exact ih h

namespace Entry

theorem beforeArrow?_plain (cs : List Char) :
    (beforeArrow? cs).getD cs <+: cs ∧ ¬arrow <:+: (beforeArrow? cs).getD cs := by
  induction cs with
  | nil => exact ⟨List.prefix_refl _, by decide⟩
  | cons c cs ih =>
    obtain ⟨front, plain⟩ := ih
    by_cases hstarts : arrow <+: c :: cs
    · have hnil : beforeArrow? (c :: cs) = some [] := if_pos (List.isPrefixOf_iff_prefix.mpr hstarts)
      rw [hnil]
      exact ⟨List.nil_prefix, by simp [arrow]⟩
    · have hcons : (beforeArrow? (c :: cs)).getD (c :: cs) = c :: (beforeArrow? cs).getD cs := by
        rw [beforeArrow?_cons hstarts]
        cases beforeArrow? cs <;> rfl
      rw [hcons]
      refine ⟨List.cons_prefix_cons.mpr ⟨rfl, front⟩, fun infixed => ?_⟩
      rcases List.infix_cons_iff.mp infixed with first | later
      · exact hstarts (first.trans (List.cons_prefix_cons.mpr ⟨rfl, front⟩))
      · exact plain later

/-- An arrow begins with a blank, so that what begins otherwise has a beginning before it. -/
theorem beforeArrow?_sharp {cs : List Char} (sharp : StartsSharp cs) :
    StartsSharp ((beforeArrow? cs).getD cs) := by
  obtain ⟨first, rest, rfl, hfirst⟩ := sharp
  have hstarts : ¬arrow <+: first :: rest := by
    intro h
    obtain ⟨rfl, _⟩ := List.cons_prefix_cons.mp h
    simp [isBlank] at hfirst
  rw [beforeArrow?_cons hstarts]
  cases beforeArrow? rest with
  | none => exact ⟨first, rest, rfl, hfirst⟩
  | some name => exact ⟨first, name, rfl, hfirst⟩

theorem name_sound {today : Date} {line : List Char} {found : Entry} (h : ofLine today line = .ok found) :
    StartsSharp found.name.toList ∧ ¬arrow <:+: found.name.toList := by
  obtain ⟨i, rest, _, _, _, hrest, _, _, rfl⟩ := anchor_of_ofLine h
  rw [String.toList_ofList]
  have sharp : StartsSharp rest := sharp_of_mem_wordStarts (List.mem_of_getElem? hrest)
  exact ⟨beforeArrow?_sharp sharp, (beforeArrow?_plain rest).2⟩

end Entry

namespace Listing

def PassedOver (line : String) : Prop :=
  blankText line.toList = true ∨ "total".toList <+: line.toList

/-- The entries of the lines, and the lines that are none although they are meant to be, both in the order
of the lines. -/
inductive Sifted (today : Date) : List String → List Entry → List (String × Entry.Fault) → Prop
  | nil : Sifted today [] [] []
  | passes {line : String} {lines : List String} {entries : List Entry}
      {rejects : List (String × Entry.Fault)} : PassedOver line → Sifted today lines entries rejects →
      Sifted today (line :: lines) entries rejects
  | takes {line : String} {found : Entry} {lines : List String} {entries : List Entry}
      {rejects : List (String × Entry.Fault)} : ¬PassedOver line →
      Entry.ofLine today line.toList = .ok found → Sifted today lines entries rejects →
      Sifted today (line :: lines) (found :: entries) rejects
  | rejects {line : String} {fault : Entry.Fault} {lines : List String} {entries : List Entry}
      {rejects : List (String × Entry.Fault)} : ¬PassedOver line →
      Entry.ofLine today line.toList = .error fault → Sifted today lines entries rejects →
      Sifted today (line :: lines) entries ((line, fault) :: rejects)

variable {today : Date} {lines : List String} {entries entries' : List Entry}
  {rejects rejects' : List (String × Entry.Fault)}

theorem isFiller_iff {line : String} : isFiller line = true ↔ PassedOver line := by
  rw [isFiller, Bool.or_eq_true, List.isPrefixOf_iff_prefix, PassedOver]

theorem exists_sifted (today : Date) (lines : List String) :
    ∃ entries rejects, Sifted today lines entries rejects := by
  induction lines with
  | nil => exact ⟨[], [], .nil⟩
  | cons line lines ih =>
    obtain ⟨entries, rejects, sifted⟩ := ih
    by_cases passed : PassedOver line
    · exact ⟨entries, rejects, .passes passed sifted⟩
    · cases hread : Entry.ofLine today line.toList with
      | ok found => exact ⟨found :: entries, rejects, .takes passed hread sifted⟩
      | error fault => exact ⟨entries, (line, fault) :: rejects, .rejects passed hread sifted⟩

namespace Sifted

/-- The lines alone decide which of them are entries and which are rejected. -/
theorem unique (sifted : Sifted today lines entries rejects) (sifted' : Sifted today lines entries' rejects') :
    entries = entries' ∧ rejects = rejects' := by
  induction sifted generalizing entries' rejects' with
  | nil => cases sifted'; exact ⟨rfl, rfl⟩
  | passes passed _ ih =>
    cases sifted' with
    | passes _ sifted' => exact ih sifted'
    | takes meant _ _ | rejects meant _ _ => exact absurd passed meant
  | takes meant hread _ ih =>
    cases sifted' with
    | passes passed _ => exact absurd passed meant
    | takes _ hread' sifted' =>
      obtain ⟨rfl, rfl⟩ := ih sifted'
      exact ⟨congrArg (· :: _) (Except.ok.inj (hread.symm.trans hread')), rfl⟩
    | rejects _ hread' _ => cases hread.symm.trans hread'
  | rejects meant hread _ ih =>
    cases sifted' with
    | passes passed _ => exact absurd passed meant
    | takes _ hread' _ => cases hread.symm.trans hread'
    | rejects _ hread' sifted' =>
      obtain ⟨rfl, rfl⟩ := ih sifted'
      cases hread.symm.trans hread'
      exact ⟨rfl, rfl⟩

theorem lenient (sifted : Sifted today lines entries rejects) : Listing.lenient today lines = entries := by
  unfold Listing.lenient
  induction sifted with
  | nil => rfl
  | passes passed _ ih =>
    rw [List.filter_cons_of_neg (by simp [isFiller_iff.mpr passed])]
    exact ih
  | takes meant hread _ ih =>
    rw [List.filter_cons_of_pos (by simp [mt isFiller_iff.mp meant]),
      List.filterMap_cons_some (by rw [entry, hread]; rfl), ih]
  | rejects meant hread _ ih =>
    rw [List.filter_cons_of_pos (by simp [mt isFiller_iff.mp meant]),
      List.filterMap_cons_none (by rw [entry, hread]; rfl)]
    exact ih

theorem strict (sifted : Sifted today lines entries rejects) : Listing.strict today lines =
    match rejects.head? with
    | none => .ok entries
    | some (line, fault) => .error (failure line fault) := by
  unfold Listing.strict
  induction sifted with
  | nil => rfl
  | passes passed _ ih =>
    rw [List.filter_cons_of_neg (by simp [isFiller_iff.mpr passed])]
    exact ih
  | @takes _ _ _ _ rejects meant hread _ ih =>
    rw [List.filter_cons_of_pos (by simp [mt isFiller_iff.mp meant]), List.mapM_cons, entry, hread, ih]
    cases rejects <;> rfl
  | rejects meant hread _ _ =>
    rw [List.filter_cons_of_pos (by simp [mt isFiller_iff.mp meant]), List.mapM_cons, entry, hread]
    rfl

theorem name_sound (sifted : Sifted today lines entries rejects) :
    ∀ found ∈ entries, StartsSharp found.name.toList ∧ ¬arrow <:+: found.name.toList := by
  induction sifted with
  | nil => simp
  | passes _ _ ih | rejects _ _ _ ih => exact ih
  | takes _ hread _ ih =>
    intro found hf
    rcases List.mem_cons.mp hf with rfl | hf
    · exact Entry.name_sound hread
    · exact ih found hf

end Sifted

theorem lenient_append (today : Date) (lines more : List String) :
    lenient today (lines ++ more) = lenient today lines ++ lenient today more := by
  simp [lenient]

/-- The lenient reading gives the entries of the lines, whatever else there is, and goes through a listing
piece by piece. The strict one gives the same, or it fails with the first line that is rejected. All that is
listed either way has a name without an arrow and without a blank before it. -/
theorem readings_agree (today : Date) (lines : List String) :
    ∃ entries rejects, Sifted today lines entries rejects ∧
      (∀ entries' rejects', Sifted today lines entries' rejects' → entries = entries' ∧ rejects = rejects') ∧
      read today false lines = .ok entries ∧
      (∀ more entries', read today false more = .ok entries' →
        read today false (lines ++ more) = .ok (entries ++ entries')) ∧
      read today true lines =
        (match rejects.head? with
        | none => .ok entries
        | some (line, fault) => .error {
            kind := .listingParse
            message := "Could not parse directory list entry '" ++ line ++ "': " ++ fault.message }) ∧
      ∀ found ∈ entries, StartsSharp found.name.toList ∧ ¬arrow <:+: found.name.toList := by
  obtain ⟨entries, rejects, sifted⟩ := exists_sifted today lines
  have hlenient : read today false lines = .ok entries := congrArg Except.ok sifted.lenient
  refine ⟨entries, rejects, sifted, fun _ _ => sifted.unique, hlenient, ?_, sifted.strict,
    sifted.name_sound⟩
  intro more entries' hmore
  have hmore' : lenient today more = entries' := Except.ok.inj hmore
  change Except.ok (lenient today (lines ++ more)) = _
  rw [lenient_append, sifted.lenient, hmore']

end Listing

end FtpControl
