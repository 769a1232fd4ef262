import FtpControl.Proofs.ExitStatus
import FtpControl.Proofs.JsonPrinting

namespace FtpControl

theorem Json.ofNat_inj {m n : Nat} (h : Json.ofNat m = Json.ofNat n) : m = n := by
  have hdigits : Nat.toDigits 10 m = Nat.toDigits 10 n := by simpa [Json.ofNat] using h
  rw [← (Numeral.ofNat m).value, ← (Numeral.ofNat n).value]
  exact congrArg ofDigits hdigits

theorem Json.record_inj {a b : List (String × Json)} (h : Json.record a = Json.record b) : a = b := by
  have hinj : Function.Injective fun m : String × Json => (Json.string m.1, m.2) := by
    rintro ⟨key, value⟩ ⟨key', value'⟩ h
    simpa using h
  simp only [Json.record, Json.object.injEq, and_true] at h
  exact List.map_injective_iff.mpr hinj h

namespace Profile

open Json

def defaults : List (String × Json) := [
  ("port", .ofNat 21),
  ("addressFamily", .string "ipv4"),
  ("authTls", .bool true),
  ("acceptInvalidCerts", .bool false),
  ("timeoutSec", .ofNat 15),
  ("initialDirectory", .null),
  ("listAfterLogin", .bool true),
  ("strictListing", .bool true),
  ("label", .null)]

/-- The members that a profile can be stored in: those of its full form, some of them left out that
have their default, and others beside them that have names of their own, all in any order. -/
def StoredIn (c : Profile) (members : List (String × Json)) : Prop :=
  ∃ full kept omitted extras, c.toJson = .record full ∧ full.Perm (kept ++ omitted) ∧
    (∀ m ∈ omitted, m ∈ defaults) ∧ (∀ m ∈ extras, m.1 ∉ full.map Prod.fst) ∧
      members.Perm (kept ++ extras)

/-- The profile as far as it is known from these fields. -/
def upTo (c : Profile) (seen : List String) : Profile where
  host := if "host" ∈ seen then c.host else ""
  port := if "port" ∈ seen then c.port else 21
  family := if "addressFamily" ∈ seen then c.family else .ipv4
  username := if "username" ∈ seen then c.username else "anonymous"
  password := if "password" ∈ seen then c.password else "anonymous@"
  authTls := if "authTls" ∈ seen then c.authTls else true
  acceptInvalidCerts := if "acceptInvalidCerts" ∈ seen then c.acceptInvalidCerts else false
  timeout := if "timeoutSec" ∈ seen then c.timeout else 15
  initialDirectory := if "initialDirectory" ∈ seen then c.initialDirectory else none
  listAfterLogin := if "listAfterLogin" ∈ seen then c.listAfterLogin else true
  strictListing := if "strictListing" ∈ seen then c.strictListing else true
  label := if "label" ∈ seen then c.label else none

theorem upTo_nil (c : Profile) : c.upTo [] = {} := rfl

variable {c : Profile} {full : List (String × Json)}

theorem takeOptionalText_optional (s : Option String) : takeOptionalText (.optional s) = .ok s := by
  cases s <;> rfl

/-- Each member of the full form is taken for the field of its name. -/
theorem put_upTo (hfull : c.toJson = .record full) (seen : List String) {m : String × Json}
    (hm : m ∈ full) {field : Json.Field Profile} (hfield : shape.field? m.1 = some field) :
    field.put m.2 (c.upTo seen) = .ok (c.upTo (m.1 :: seen)) := by
  obtain rfl := record_inj hfull
  have hport : takeNatural 16 (.ofNat c.port.toNat) = .ok c.port.toNat :=
    takeNatural_ofNat (by decide) c.port.toNat_lt
  have htimeout : takeNatural 64 (.ofNat c.timeout.toNat) = .ok c.timeout.toNat :=
    takeNatural_ofNat (by decide) c.timeout.toNat_lt
  simp only [List.mem_cons, List.not_mem_nil, or_false] at hm
  rcases hm with rfl | rfl | rfl | rfl | rfl | rfl | rfl | rfl | rfl | rfl | rfl | rfl
  all_goals
    simp only [RecordShape.field?, shape, List.find?] at hfield
    obtain rfl := Option.some.inj hfield
    simp [hport, htimeout, takeOptionalText_optional, upTo, takeText, takeFlag, bind,
      Except.bind, pure, Except.pure]
  -- The name of the family is left, which is printed by cases.
  cases c.family <;> rfl

theorem upTo_eq (hfull : c.toJson = .record full) {seen : List String}
    (h : ∀ m ∈ full, m.1 ∉ seen → m ∈ defaults) : c.upTo seen = c := by
  obtain rfl := record_inj hfull
  have hport : ∀ n : UInt16, Json.ofNat n.toNat = .ofNat 21 → n = 21 := fun n hn =>
    UInt16.toNat_inj.mp (ofNat_inj hn)
  have htimeout : ∀ n : UInt64, Json.ofNat n.toNat = .ofNat 15 → n = 15 := fun n hn =>
    UInt64.toNat_inj.mp (ofNat_inj hn)
  have hoptional : ∀ s : Option String, Json.optional s = .null → s = none := by
    rintro (_ | s) hs
    · rfl
    · cases hs
  simp only [defaults, List.mem_cons, List.not_mem_nil, or_false, forall_eq_or_imp, forall_eq,
    Prod.mk.injEq, String.reduceEq, false_and, true_and, or_self, false_or, imp_false, not_not,
    Json.string.injEq, Json.bool.injEq] at h
  obtain ⟨host, port, family, username, password, authTls, certs, timeout, directory, listing, strict,
    label⟩ := h
  have hipv4 : "addressFamily" ∉ seen → c.family = .ipv4 := by
    intro hn
    have hname := family hn
    cases hf : c.family with
    | ipv4 => rfl
    | ipv6 => simp [hf] at hname
  cases c
  simp only [upTo, mk.injEq, ite_eq_left_iff]
  exact ⟨fun hn => absurd host hn, fun hn => (hport _ (port hn)).symm,
    fun hn => (hipv4 hn).symm, fun hn => absurd username hn,
    fun hn => absurd password hn, fun hn => (authTls hn).symm, fun hn => (certs hn).symm,
    fun hn => (htimeout _ (timeout hn)).symm, fun hn => (hoptional _ (directory hn)).symm,
    fun hn => (listing hn).symm, fun hn => (strict hn).symm,
    fun hn => (hoptional _ (label hn)).symm⟩

theorem full_names (hfull : c.toJson = .record full) :
    full.map Prod.fst = shape.fields.map Field.name := by
  obtain rfl := record_inj hfull
  rfl

theorem full_nodup (hfull : c.toJson = .record full) : (full.map Prod.fst).Nodup := by
  rw [full_names hfull]
  decide

theorem not_default {field : Json.Field Profile} (hfield : field ∈ shape.fields)
    (hnamed : field.named = true) {m : String × Json} (hm : m ∈ defaults) : m.1 ≠ field.name := by
  have all : ∀ field ∈ shape.fields, field.named = true → ∀ m ∈ defaults, m.1 ≠ field.name := by decide
  exact all field hfield hnamed m hm

theorem StoredIn.take {members : List (String × Json)} (h : c.StoredIn members)
    (passed : ∀ m ∈ members, m.2.pass = .ok ()) : shape.take {} (.record members) = .ok c := by
  obtain ⟨full, kept, omitted, extras, hfull, hkept, hdefault, hextra, hperm⟩ := h
  have hnames := full_names hfull
  have hmember : ∀ m ∈ kept, m ∈ full := fun m hm => hkept.mem_iff.mpr (List.mem_append_left _ hm)
  -- The extra members have no field, those that are kept have one each.
  have hnamed : (shape.named (byKey members)).Perm (kept.map Prod.fst) := by
    have hsome : ∀ name ∈ kept.map Prod.fst, (shape.field? name).isSome = true := by
      intro name hname
      obtain ⟨m, hm, rfl⟩ := List.mem_map.mp hname
      rw [RecordShape.field?_isSome, ← hnames]
      exact List.mem_map_of_mem (hmember m hm)
    have hnone : ∀ name ∈ extras.map Prod.fst, ¬(shape.field? name).isSome = true := by
      intro name hname
      obtain ⟨m, hm, rfl⟩ := List.mem_map.mp hname
      rw [RecordShape.field?_isSome, ← hnames]
      exact hextra m hm
    have hfilter := (hperm.map Prod.fst).filter fun name => (shape.field? name).isSome
    rwa [List.map_append, List.filter_append, List.filter_eq_self.mpr hsome,
      List.filter_eq_nil_iff.mpr hnone, List.append_nil, ← RecordShape.named_byKey] at hfilter
  have hall : ∀ m ∈ full, m.1 ∉ shape.named (byKey members) → m ∈ defaults := by
    intro m hm hnot
    rcases List.mem_append.mp (hkept.mem_iff.mp hm) with hm | hm
    · exact absurd (hnamed.mem_iff.mpr (List.mem_map_of_mem hm)) hnot
    · exact hdefault m hm
  have nodup : (shape.named (byKey members)).Nodup := by
    have hnodup := (hkept.map Prod.fst).nodup_iff.mp (full_nodup hfull)
    rw [List.map_append] at hnodup
    exact hnamed.nodup_iff.mpr (hnodup.sublist (List.sublist_append_left _ _))
  have complete : ∀ field ∈ shape.fields, field.named = true →
      field.name ∈ [] ∨ field.name ∈ shape.named (byKey members) := by
    intro field hfield hmust
    right
    have hname : field.name ∈ full.map Prod.fst := hnames ▸ List.mem_map_of_mem hfield
    obtain ⟨m, hm, hname⟩ := List.mem_map.mp hname
    by_contra hnot
    exact not_default hfield hmust (hall m hm (hname ▸ hnot)) hname
  have step : ∀ seen, ∀ m ∈ members, ∀ field, shape.field? m.1 = some field →
      field.put m.2 (c.upTo seen) = .ok (c.upTo (m.1 :: seen)) := by
    intro seen m hm field hfield
    rcases List.mem_append.mp (hperm.mem_iff.mp hm) with hm | hm
    · exact put_upTo hfull seen (hmember m hm) hfield
    · refine absurd ?_ (hextra m hm)
      rw [hnames, ← RecordShape.field?_isSome, hfield]
      rfl
  have htake := RecordShape.takeMembers_stages c.upTo step passed nodup (by simp) complete
  rw [upTo_nil, List.append_nil] at htake
  rw [record_eq, RecordShape.take, htake]
  exact congrArg Except.ok (upTo_eq hfull fun m hm hnot => hall m hm (by simpa using hnot))

theorem StoredIn.ofText {members : List (String × Json)} (h : c.StoredIn members) {text : List Char}
    (document : Document (.record members) text) : ofText text = c.validated := by
  have passed : ∀ m ∈ members, m.2.pass = .ok () := fun m hm => by
    obtain ⟨_, written⟩ := document.member _ (List.mem_map_of_mem hm)
    exact written.pass
  rw [Profile.ofText, document.takeAll, h.take passed]
  rfl

end Profile

end FtpControl
