import FtpControl.Json.Record
import FtpControl.Proofs.JsonReading

namespace FtpControl.Json

theorem Written.pass {value : Json} {text : List Char} (h : Written value text) :
    value.pass = .ok () := by
  cases h <;> rfl

/-- In a document every member of an object is written out. -/
theorem Document.member {members : List (Json × Json)} {text : List Char}
    (h : Document (.object members none) text) :
    ∀ m ∈ members, ∃ text, Written m.2 text := by
  obtain ⟨⟨_, value, text, _, _⟩, written, rfl, -⟩ := h
  cases written with
  | emptyObject _ => nofun
  | object each =>
    intro m hm
    obtain ⟨member, hmember, rfl⟩ := List.mem_map.mp hm
    exact ⟨_, each member hmember⟩

theorem takeNatural_ofNat {bits n : Nat} (hbits : bits ≤ 64) (h : n < Nat.pow 2 bits) :
    takeNatural bits (.ofNat n) = .ok n := by
  have hsize : n < 2 ^ 64 := Nat.lt_of_lt_of_le h (Nat.pow_le_pow_right (by decide) hbits)
  have hvalue : ofDigits (Nat.toDigits 10 n) = n := (FtpControl.Numeral.ofNat n).value
  have hnumber : Numeral.number { whole := Nat.toDigits 10 n } = .ok (.natural (UInt64.ofNat n)) := by
    simp [Numeral.number, hvalue, show n < Nat.pow 2 64 from hsize]
  have hnat : (UInt64.ofNat n).toNat = n := UInt64.toNat_ofNat_of_lt hsize
  simp only [Json.ofNat, takeNatural, hnumber, hnat, h, ↓reduceIte]

def byKey (members : List (String × Json)) : List (Json × Json) :=
  members.map fun (key, value) => (.string key, value)

@[simp] theorem byKey_nil : byKey [] = [] := rfl

theorem byKey_cons (key : String) (value : Json) (members : List (String × Json)) :
    byKey ((key, value) :: members) = (.string key, value) :: byKey members := rfl

theorem record_eq (members : List (String × Json)) :
    record members = .object (byKey members) none := rfl

namespace RecordShape

variable {α : Type} (shape : RecordShape α)

/-- The names of fields among the members, in the order of the members. -/
def named (members : List (Json × Json)) : List String :=
  members.filterMap fun
    | (.string name, _) => if (shape.field? name).isSome then some name else none
    | _ => none

variable {shape}

@[simp] theorem named_nil : shape.named [] = [] := rfl

theorem named_field {name : String} (h : (shape.field? name).isSome) (value : Json)
    (members : List (Json × Json)) :
    shape.named ((.string name, value) :: members) = name :: shape.named members := by
  simp [named, h]

theorem named_other {key : Json} (h : ∀ name, key = .string name → shape.field? name = none)
    (value : Json) (members : List (Json × Json)) :
    shape.named ((key, value) :: members) = shape.named members := by
  cases key with
  | string name => simp [named, h name rfl]
  | _ => rfl

theorem named_byKey (members : List (String × Json)) :
    shape.named (byKey members) =
      (members.map Prod.fst).filter fun name => (shape.field? name).isSome := by
  induction members with
  | nil => rfl
  | cons m members ih =>
    rw [byKey_cons, List.map_cons, List.filter_cons]
    split
    next h => rw [named_field h, ih]
    next h => rw [named_other (by rintro _ ⟨⟩; simpa using h), ih]

theorem field?_isSome {name : String} :
    (shape.field? name).isSome ↔ name ∈ shape.fields.map Field.name := by
  rw [field?, List.find?_isSome]
  simp

theorem takeMembers_other {name : String} (h : shape.field? name = none) (stop : Option Break)
    (seen : List String) (a : α) (value : Json) (members : List (Json × Json)) :
    shape.takeMembers stop seen a ((.string name, value) :: members) =
      value.pass >>= fun _ => shape.takeMembers stop seen a members := by
  simp only [takeMembers, memberName, bind, Except.bind, h]

theorem takeMembers_field {name : String} {field : Field α} (h : shape.field? name = some field)
    (stop : Option Break) (seen : List String) (a : α) (value : Json) (members : List (Json × Json)) :
    shape.takeMembers stop seen a ((.string name, value) :: members) =
      if name ∈ seen then .error (.repeated name)
      else field.put value a >>= fun a => shape.takeMembers stop (name :: seen) a members := by
  by_cases hseen : name ∈ seen
  · simp only [takeMembers, memberName, bind, Except.bind, h, List.contains_iff_mem, hseen, ↓reduceIte]
    rfl
  · simp only [takeMembers, memberName, bind, Except.bind, h, List.contains_iff_mem, hseen, ↓reduceIte]

/-- Where each field takes the record from one stage to the next, the members take it to the stage
of all their fields. -/
theorem takeMembers_stages (stage : List String → α) {members : List (String × Json)}
    {seen : List String}
    (step : ∀ seen, ∀ m ∈ members, ∀ field, shape.field? m.1 = some field →
      field.put m.2 (stage seen) = .ok (stage (m.1 :: seen)))
    (passed : ∀ m ∈ members, m.2.pass = .ok ())
    (nodup : (shape.named (byKey members)).Nodup)
    (fresh : ∀ name ∈ shape.named (byKey members), name ∉ seen)
    (complete : ∀ field ∈ shape.fields, field.named = true →
      field.name ∈ seen ∨ field.name ∈ shape.named (byKey members)) :
    shape.takeMembers none seen (stage seen) (byKey members) =
      .ok (stage ((shape.named (byKey members)).reverse ++ seen)) := by
  induction members generalizing seen with
  | nil =>
    have hnone : (shape.fields.find? fun field => field.named && !seen.contains field.name) = none := by
      refine List.find?_eq_none.mpr fun field hfield => ?_
      cases hnamed : field.named with
      | false => simp
      | true => simpa using complete field hfield hnamed
    simp only [byKey_nil, takeMembers, hnone]
    rfl
  | cons m members ih =>
    obtain ⟨name, value⟩ := m
    have step' := fun seen m hm => step seen m (List.mem_cons_of_mem _ hm)
    have passed' := fun m hm => passed m (List.mem_cons_of_mem _ hm)
    rw [byKey_cons] at nodup fresh complete ⊢
    cases hfield : shape.field? name with
    | none =>
      rw [named_other (by rintro _ ⟨⟩; exact hfield)] at nodup fresh complete ⊢
      rw [takeMembers_other hfield, passed _ List.mem_cons_self]
      exact ih step' passed' nodup fresh complete
    | some field =>
      rw [named_field (by simp [hfield])] at nodup fresh complete ⊢
      obtain ⟨hfirst, nodup⟩ := List.nodup_cons.mp nodup
      rw [takeMembers_field hfield, if_neg (fresh name List.mem_cons_self),
        step seen _ List.mem_cons_self field hfield]
      rw [List.reverse_cons, List.append_assoc, List.singleton_append]
      refine ih step' passed' nodup ?_ ?_
      · intro other hother hm
        rcases List.mem_cons.mp hm with rfl | hm
        · exact hfirst hother
        · exact fresh other (List.mem_cons_of_mem _ hother) hm
      · intro field hfield hnamed
        have := complete field hfield hnamed
        simp only [List.mem_cons] at this ⊢
        tauto

end RecordShape

end FtpControl.Json
