import FtpControl.Proofs.Columns

namespace FtpControl

namespace Columns

variable {today : Date} (c : Columns today) (gap : Nat → Blanks) {last name : List Char}
  {owner group : Token}

theorem misleading_iff (h : c.owners = [owner, group]) :
    c.Misleading ↔ allDigits owner.text = true ∧ (month? group.text).isSome = true := by
  constructor
  · rintro ⟨owner', group', h', clash⟩
    obtain ⟨rfl, hgroup⟩ := List.cons.inj (h.symm.trans h')
    obtain ⟨rfl, _⟩ := List.cons.inj hgroup
    exact clash
  · intro clash
    exact ⟨owner, group, h, clash⟩

/-- What is wrong with a line in which the group is taken for the month: the owner is the size then, the
size is the day and the month is the year. -/
def mistake (owner : Token) : Entry.Fault :=
  if ofDigits owner.text < Nat.pow 2 64 then
    if c.size.toNat < Nat.pow 2 32 then .year c.month.text else .day c.sizeDigits.digits
  else .size owner.text

theorem anchor?_misleading (sharp : StartsSharp last) (h : c.owners = [owner, group])
    (number : allDigits owner.text = true) (month : (month? group.text).isSome = true) :
    Entry.anchor? (columns (c.line gap last)) = some 3 := by
  have howner : c.tokens[2]? = some owner := by simp [tokens, h]
  have hgroup : c.tokens[3]? = some group := by simp [tokens, h]
  have h2 := c.wordAt_line gap sharp howner
  have h3 := c.wordAt_line gap sharp hgroup
  simp [Entry.anchor?, h2, h3, number, month]

/-- Read one column too early, the date has the name of a month for its year. -/
theorem moment_misleading (month : (month? group.text).isSome = true) :
    Entry.moment today group.text c.sizeDigits.token.text c.month.text =
      .error (if c.size.toNat < Nat.pow 2 32 then .year c.month.text else .day c.sizeDigits.digits) := by
  obtain ⟨groupMonth, hgroup⟩ := Option.isSome_iff_exists.mp month
  obtain ⟨ownMonth, hmonth⟩ := Entry.month?_of_moment c.dated
  have hday : natural? (Nat.pow 2 32) c.sizeDigits.token.text =
      if c.size.toNat < Nat.pow 2 32 then some c.size.toNat else none :=
    c.sizeDigits.natural?_eq _
  have hcolon : c.month.text.contains ':' = false := by
    rw [Bool.eq_false_iff]
    intro hc
    exact (letters_of_month? hmonth ':' (by simpa using hc)).1 rfl
  have hyear := integer?_of_month? hmonth (Nat.pow 2 31)
  unfold Entry.moment
  rw [hgroup, hday, hcolon]
  by_cases hfits : c.size.toNat < Nat.pow 2 32
  · simp only [hfits, hyear, ↓reduceIte]
    rfl
  · simp only [hfits, ↓reduceIte]
    rfl

theorem ofLine_misleading (sharp : StartsSharp last) (h : c.owners = [owner, group])
    (number : allDigits owner.text = true) (month : (month? group.text).isSome = true) :
    Entry.ofLine today (c.line gap last) = .error (c.mistake owner) := by
  have anchor := c.anchor?_misleading gap sharp h number month
  have hmoment := c.moment_misleading month
  have hword := @wordAt_line _ c gap _ sharp
  have htokens : c.tokens =
      [c.permissions, c.links, owner, group, c.sizeDigits.token, c.month, c.day, c.clock] := by
    simp [tokens, h]
  rw [htokens] at hword
  have h2 := @hword 2 _ rfl
  have h3 := @hword 3 _ rfl
  have h4 := @hword 4 _ rfl
  have h5 := @hword 5 _ rfl
  obtain ⟨hlast, _⟩ := List.getElem?_eq_some_iff.mp (c.last_line gap sharp)
  have long : 8 < (columns (c.line gap last)).length := by
    rw [htokens] at hlast
    exact hlast
  have hday : ¬(columns (c.line gap last)).length ≤ 3 + 1 := by omega
  have hclock : ¬(columns (c.line gap last)).length ≤ 3 + 2 := by omega
  have hname : (columns (c.line gap last))[3 + 3]? = some (columns (c.line gap last))[6] :=
    List.getElem?_eq_getElem (by omega)
  have howner : natural? (Nat.pow 2 64) owner.text =
      if ofDigits owner.text < Nat.pow 2 64 then some (ofDigits owner.text) else none :=
    Numeral.natural?_eq ⟨owner.text, number, rfl⟩ _
  unfold Entry.ofLine mistake
  by_cases hnumber : ofDigits owner.text < Nat.pow 2 64
  · simp only [anchor, hday, hclock, hname, h2, h3, h4, h5, howner, hnumber, hmoment, ↓reduceIte,
      Nat.add_one_sub_one]
    rfl
  · simp only [anchor, hday, hclock, hname, h2, howner, hnumber, ↓reduceIte, Nat.add_one_sub_one]
    rfl

/-- What is put into the columns of a line is read from it again: the name to its last blank, the size and
the moment, and the kind by the first character of the permissions: a file for a dash, a directory for `d`
or `l`, something else for any other. With a target behind the name it is a link. The months are known by
their abbreviations, in any letter case. -/
theorem ofLine_composed (sharp : StartsSharp name) (plain : ¬arrow <:+: name)
    (few : c.owners.length ≤ 2) (clear : ¬c.Misleading) :
    Entry.ofLine today (c.line gap name) = .ok {
      name := String.ofList name
      kind :=
        if c.permissions.first = '-' then .file
        else if c.permissions.first = 'd' ∨ c.permissions.first = 'l' then .directory
        else .other
      size := c.size
      modified := c.modified } ∧
    (¬[' ', '-', '>'] <:+ name → ∀ target, Entry.ofLine today (c.line gap (name ++ (arrow ++ target))) =
      .ok {
        name := String.ofList name
        kind := .link
        size := c.size
        modified := c.modified }) ∧
    ∀ (month : Nat) (text : List Char), month? text = some month ↔
      (1 ≤ month ∧ month ≤ 12) ∧
        text.map Char.toLower = (abbreviation month).toList.map Char.toLower := by
  refine ⟨?_, ?_, ?_⟩
  · rw [c.ofLine_line gap sharp few clear, entry, Entry.beforeArrow?_eq_none plain]
    rfl
  · intro hend target
    obtain ⟨first, rest, rfl, hfirst⟩ := sharp
    have sharp' : StartsSharp (first :: rest ++ (arrow ++ target)) := ⟨first, _, rfl, hfirst⟩
    rw [c.ofLine_line gap sharp' few clear, entry, Entry.beforeArrow?_append plain hend]
    rfl
  · exact fun month text => month?_eq_some

def february (owner group : Token) : Columns ⟨2024, 6, 1, by decide⟩ where
  permissions := .ofChars "-rw-r--r--".toList (by decide) (by decide)
  links := .ofChars "1".toList (by decide) (by decide)
  owners := [owner, group]
  size := 10
  sizeDigits := ⟨"10".toList, by decide, by decide⟩
  month := .ofChars "Feb".toList (by decide) (by decide)
  day := .ofChars "2".toList (by decide) (by decide)
  clock := .ofChars "11:00".toList (by decide) (by decide)
  modified := ⟨⟨2024, 2, 2, by decide⟩, ⟨11, 0, 0, 0, by decide⟩⟩
  dated := by decide +kernel

def thousand : Token :=
  .ofChars "1000".toList (by decide) (by decide)

def january : Token :=
  .ofChars "Jan".toList (by decide) (by decide)

def wideBlanks : Nat → Blanks
  | 0 => ⟨['\t'], by decide, by decide⟩
  | _ + 1 => ⟨['\u3000'], by decide, by decide⟩

/-- Columns of the same date, with months in odd letter case for it and for the owner. -/
def oddlySpelled (permissions : Token) : Columns ⟨2024, 6, 1, by decide⟩ :=
  { february (.ofChars "jAN".toList (by decide) (by decide)) thousand with
    permissions
    month := .ofChars "fEB".toList (by decide) (by decide)
    dated := by decide +kernel }

/-- The owner is called for a month, the group for a number, and the name is like a date. The same line is
read with the permissions of a file, of directories, of a device and of nothing known, and as a link. -/
theorem ofLine_january :
    Entry.ofLine ⟨2024, 6, 1, by decide⟩
        "-rw-r--r--\u30001\u3000jAN\u30001000\u300010\u3000fEB\u30002\u300011:00\t7  jan 9 ".toList =
      .ok {
        name := "7  jan 9 "
        kind := .file
        size := 10
        modified := ⟨⟨2024, 2, 2, by decide⟩, ⟨11, 0, 0, 0, by decide⟩⟩ } ∧
    Entry.ofLine ⟨2024, 6, 1, by decide⟩
        "drwxr-xr-x\u30001\u3000jAN\u30001000\u300010\u3000fEB\u30002\u300011:00\t7  jan 9 ".toList =
      .ok {
        name := "7  jan 9 "
        kind := .directory
        size := 10
        modified := ⟨⟨2024, 2, 2, by decide⟩, ⟨11, 0, 0, 0, by decide⟩⟩ } ∧
    Entry.ofLine ⟨2024, 6, 1, by decide⟩
        "lrwxrwxrwx\u30001\u3000jAN\u30001000\u300010\u3000fEB\u30002\u300011:00\t7  jan 9 ".toList =
      .ok {
        name := "7  jan 9 "
        kind := .directory
        size := 10
        modified := ⟨⟨2024, 2, 2, by decide⟩, ⟨11, 0, 0, 0, by decide⟩⟩ } ∧
    Entry.ofLine ⟨2024, 6, 1, by decide⟩
        "brw-rw----\u30001\u3000jAN\u30001000\u300010\u3000fEB\u30002\u300011:00\t7  jan 9 ".toList =
      .ok {
        name := "7  jan 9 "
        kind := .other
        size := 10
        modified := ⟨⟨2024, 2, 2, by decide⟩, ⟨11, 0, 0, 0, by decide⟩⟩ } ∧
    Entry.ofLine ⟨2024, 6, 1, by decide⟩
        "?---------\u30001\u3000jAN\u30001000\u300010\u3000fEB\u30002\u300011:00\t7  jan 9 ".toList =
      .ok {
        name := "7  jan 9 "
        kind := .other
        size := 10
        modified := ⟨⟨2024, 2, 2, by decide⟩, ⟨11, 0, 0, 0, by decide⟩⟩ } ∧
    Entry.ofLine ⟨2024, 6, 1, by decide⟩
        "-rw-r--r--\u30001\u3000jAN\u30001000\u300010\u3000fEB\u30002\u300011:00\t7  jan 9  -> a -> b".toList =
      .ok {
        name := "7  jan 9 "
        kind := .link
        size := 10
        modified := ⟨⟨2024, 2, 2, by decide⟩, ⟨11, 0, 0, 0, by decide⟩⟩ } := by
  have sharp : StartsSharp "7  jan 9 ".toList := ⟨'7', "  jan 9 ".toList, by decide +kernel, by decide⟩
  have plain : ¬arrow <:+: "7  jan 9 ".toList := by decide +kernel
  have hend : ¬[' ', '-', '>'] <:+ "7  jan 9 ".toList := by decide +kernel
  have clear : ∀ permissions, ¬(oddlySpelled permissions).Misleading := by
    intro permissions
    rw [misleading_iff _ rfl]
    decide +kernel
  have read : ∀ (permissions : Token) {text : List Char} {kind : Entry.Kind},
      (oddlySpelled permissions).line wideBlanks "7  jan 9 ".toList = text →
      (if permissions.first = '-' then .file
        else if permissions.first = 'd' ∨ permissions.first = 'l' then .directory
        else .other) = kind →
      Entry.ofLine ⟨2024, 6, 1, by decide⟩ text = .ok {
        name := "7  jan 9 "
        kind
        size := 10
        modified := ⟨⟨2024, 2, 2, by decide⟩, ⟨11, 0, 0, 0, by decide⟩⟩ } := by
    rintro permissions text kind rfl rfl
    exact (ofLine_composed (oddlySpelled permissions) wideBlanks sharp plain le_rfl (clear _)).1
  refine ⟨?_, ?_, ?_, ?_, ?_, ?_⟩
  · exact read (.ofChars "-rw-r--r--".toList (by decide) (by decide)) (by decide +kernel) rfl
  · exact read (.ofChars "drwxr-xr-x".toList (by decide) (by decide)) (by decide +kernel) rfl
  · exact read (.ofChars "lrwxrwxrwx".toList (by decide) (by decide)) (by decide +kernel) rfl
  · exact read (.ofChars "brw-rw----".toList (by decide) (by decide)) (by decide +kernel) rfl
  · exact read (.ofChars "?---------".toList (by decide) (by decide)) (by decide +kernel) rfl
  · have hline : (oddlySpelled (.ofChars "-rw-r--r--".toList (by decide) (by decide))).line wideBlanks
          ("7  jan 9 ".toList ++ (arrow ++ "a -> b".toList)) =
        "-rw-r--r--\u30001\u3000jAN\u30001000\u300010\u3000fEB\u30002\u300011:00\t7  jan 9  -> a -> b".toList := by
      decide +kernel
    rw [← hline]
    exact (ofLine_composed _ wideBlanks sharp plain le_rfl (clear _)).2.1 hend _

/-- Of eight columns the month is found behind the size, and what is read is what was put in, unless the
owner's name is a number and the group's is that of a month. Then the group is taken for the month, and
the line for no entry. -/
theorem date_behind_size_iff (sharp : StartsSharp last) (h : c.owners = [owner, group]) :
    ((Entry.anchor? (columns (c.line gap last)) = some 5 ∧
        Entry.ofLine today (c.line gap last) = .ok (c.entry last)) ↔
      ¬(allDigits owner.text = true ∧ (month? group.text).isSome = true)) ∧
    (allDigits owner.text = true ∧ (month? group.text).isSome = true →
      Entry.anchor? (columns (c.line gap last)) = some 3 ∧
        Entry.ofLine today (c.line gap last) = .error (c.mistake owner)) := by
  refine ⟨⟨?_, ?_⟩, ?_⟩
  · rintro ⟨anchor, _⟩ ⟨number, month⟩
    rw [c.anchor?_misleading gap sharp h number month] at anchor
    simp at anchor
  · intro clear
    have few : c.owners.length ≤ 2 := by simp [h]
    have clear' : ¬c.Misleading := fun misleading => clear ((c.misleading_iff h).mp misleading)
    have anchor := c.anchor?_line gap sharp few clear'
    rw [h] at anchor
    exact ⟨anchor, c.ofLine_line gap sharp few clear'⟩
  · rintro ⟨number, month⟩
    exact ⟨c.anchor?_misleading gap sharp h number month, c.ofLine_misleading gap sharp h number month⟩

theorem date_behind_january :
    Entry.anchor? (columns ((february january thousand).line wideBlanks "Jan 10 Feb".toList)) = some 5 ∧
      Entry.ofLine ⟨2024, 6, 1, by decide⟩
          ((february january thousand).line wideBlanks "Jan 10 Feb".toList) =
        .ok ((february january thousand).entry "Jan 10 Feb".toList) := by
  have sharp : StartsSharp "Jan 10 Feb".toList := ⟨'J', "an 10 Feb".toList, by decide +kernel, by decide⟩
  have clear : ¬(allDigits january.text = true ∧ (month? thousand.text).isSome = true) := by
    decide +kernel
  exact (date_behind_size_iff (february january thousand) wideBlanks sharp rfl).1.mpr clear

/-- The other way round the group is taken for the month, the owner for the size, and February for the
year. -/
theorem group_called_january_misleads :
    Entry.ofLine ⟨2024, 6, 1, by decide⟩ "-rw-r--r-- 1 1000 Jan 10 Feb 2 11:00 a b".toList =
      .error (.year "Feb".toList) ∧
    ¬∀ (today : Date) (c : Columns today) (gap : Nat → Blanks) (owner group : Token) (last : List Char),
      StartsSharp last → c.owners = [owner, group] →
        Entry.anchor? (columns (c.line gap last)) = some 5 ∧
          Entry.ofLine today (c.line gap last) = .ok (c.entry last) := by
  let gap : Nat → Blanks := fun _ => ⟨[' '], by decide, by decide⟩
  have hline : (february thousand january).line gap "a b".toList =
      "-rw-r--r-- 1 1000 Jan 10 Feb 2 11:00 a b".toList := by
    decide +kernel
  have sharp : StartsSharp "a b".toList := ⟨'a', " b".toList, by decide +kernel, by decide⟩
  have misread := (february thousand january).ofLine_misleading gap sharp rfl (by decide +kernel)
    (by decide +kernel)
  refine ⟨?_, ?_⟩
  · rw [← hline, misread]
    decide +kernel
  · intro all
    obtain ⟨_, read⟩ := all _ (february thousand january) gap thousand january _ sharp rfl
    rw [misread] at read
    simp at read

end Columns

end FtpControl
