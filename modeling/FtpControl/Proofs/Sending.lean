import FtpControl.Proofs.Coupling
import FtpControl.Proofs.Framing
import FtpControl.Proofs.LineText

namespace FtpControl

/-- The texts that may not follow a command word. -/
def Argument.Refuses (text : String) : Prop :=
  text.toList = [] ∨ '\r' ∈ text.toList ∨ '\n' ∈ text.toList

instance (text : String) : Decidable (Argument.Refuses text) :=
  inferInstanceAs (Decidable (_ ∨ _))

theorem Argument.not_refuses (argument : Argument) : ¬Argument.Refuses argument.text := by
  rintro (h | h | h)
  · exact argument.nonempty h
  · exact argument.one_line.1 h
  · exact argument.one_line.2 h

namespace Command

/-- A way to a command from a text. -/
structure Builder where
  word : String
  /-- What is told where there is no text. -/
  missing : String
  make : String → Except Failure Command

def builders : List Builder :=
  [⟨"USER", "Empty username.", userNamed⟩, ⟨"PASS", "Empty password.", passWith⟩,
    ⟨"CWD", "Empty path.", changeTo⟩, ⟨"DELE", "Empty path.", delete⟩,
    ⟨"MKD", "Empty path.", makeDirectory⟩, ⟨"SITE", "Empty command.", siteCommand⟩]

def bare : List Command :=
  [.authTls, .pbszZero, .pwd, .statList, .feat, .pasv]

variable {builder : Builder}

theorem Builder.wraps (h : builder ∈ builders) : ∃ wrap : Argument → Command,
    (∀ text, builder.make text = wrap <$> Argument.ofText builder.missing text) ∧
      ∀ argument, (wrap argument).line = builder.word ++ " " ++ argument.text := by
  simp only [builders, List.mem_cons, List.not_mem_nil, or_false] at h
  rcases h with rfl | rfl | rfl | rfl | rfl | rfl
  · exact ⟨.user, fun _ => rfl, fun _ => rfl⟩
  · exact ⟨.pass, fun _ => rfl, fun _ => rfl⟩
  · exact ⟨.cwd, fun _ => rfl, fun _ => rfl⟩
  · exact ⟨.dele, fun _ => rfl, fun _ => rfl⟩
  · exact ⟨.mkd, fun _ => rfl, fun _ => rfl⟩
  · exact ⟨.site, fun _ => rfl, fun _ => rfl⟩

theorem Builder.of_make (h : builder ∈ builders) {text : String} {command : Command}
    (hmake : builder.make text = .ok command) :
    ¬Argument.Refuses text ∧ command.line = builder.word ++ " " ++ text := by
  obtain ⟨wrap, hwrap, hline⟩ := Builder.wraps h
  rw [hwrap] at hmake
  obtain ⟨argument, rfl, rfl⟩ := argument_of_map hmake
  exact ⟨argument.not_refuses, hline argument⟩

theorem built (command : Command) :
    command ∈ bare ∨ ∃ builder ∈ builders, ∃ text, builder.make text = .ok command := by
  have wrapped : ∀ {wrap : Argument → Command} {missing : String} (argument : Argument),
      wrap <$> Argument.ofText missing argument.text = .ok (wrap argument) := by
    intro wrap missing argument
    rw [Argument.ofText_text]
    rfl
  cases command with
  | authTls | pbszZero | pwd | statList | feat | pasv => exact Or.inl (by simp [bare])
  | user argument =>
    exact Or.inr ⟨⟨"USER", "Empty username.", userNamed⟩, by simp [builders], argument.text, wrapped argument⟩
  | pass argument =>
    exact Or.inr ⟨⟨"PASS", "Empty password.", passWith⟩, by simp [builders], argument.text, wrapped argument⟩
  | cwd argument =>
    exact Or.inr ⟨⟨"CWD", "Empty path.", changeTo⟩, by simp [builders], argument.text, wrapped argument⟩
  | dele argument =>
    exact Or.inr ⟨⟨"DELE", "Empty path.", delete⟩, by simp [builders], argument.text, wrapped argument⟩
  | mkd argument =>
    exact Or.inr ⟨⟨"MKD", "Empty path.", makeDirectory⟩, by simp [builders], argument.text, wrapped argument⟩
  | site argument =>
    exact Or.inr ⟨⟨"SITE", "Empty command.", siteCommand⟩, by simp [builders], argument.text, wrapped argument⟩

def firstWord (line : List Char) : List Char :=
  line.takeWhile (· != ' ')

/-- The command that a line tells. -/
def ofLine? (line : String) : Option Command :=
  match bare.find? (·.line == line) with
  | some command => some command
  | none =>
    (builders.find? (·.word.toList == firstWord line.toList)).bind fun builder =>
      (builder.make (String.ofList (line.toList.drop (builder.word.toList.length + 1)))).toOption

theorem toList_builder (builder : Builder) (text : String) :
    (builder.word ++ " " ++ text).toList = builder.word.toList ++ ' ' :: text.toList := by
  simp [String.toList_append]

theorem firstWord_builder (h : builder ∈ builders) (text : String) :
    firstWord (builder.word ++ " " ++ text).toList = builder.word.toList := by
  have hword : ∀ b ∈ builders, b.word.toList.all (· != ' ') = true := by decide
  rw [toList_builder, firstWord, List.takeWhile_append_of_pos (List.all_eq_true.mp (hword builder h))]
  simp

theorem find_builder (h : builder ∈ builders) :
    builders.find? (·.word.toList == builder.word.toList) = some builder := by
  simp only [builders, List.mem_cons, List.not_mem_nil, or_false] at h
  rcases h with rfl | rfl | rfl | rfl | rfl | rfl <;> rfl

theorem find_bare (h : builder ∈ builders) (text : String) :
    bare.find? (·.line == builder.word ++ " " ++ text) = none := by
  have hwords : ∀ command ∈ bare, ∀ b ∈ builders, firstWord command.line.toList ≠ b.word.toList := by
    decide
  -- Not even the first word agrees.
  refine List.find?_eq_none.mpr fun command hc heq => hwords command hc builder h ?_
  rw [eq_of_beq heq, firstWord_builder h]

theorem ofLine?_line (command : Command) : ofLine? command.line = some command := by
  rcases built command with h | ⟨builder, hb, text, hmake⟩
  · revert command
    decide
  · have hline := (Builder.of_make hb hmake).2
    have hrest : (builder.word ++ " " ++ text).toList.drop (builder.word.toList.length + 1) =
        text.toList := by
      rw [toList_builder, List.drop_append]
      simp
    rw [hline, ofLine?, find_bare hb, firstWord_builder hb, find_builder hb]
    simp only [Option.bind_some, hrest, String.ofList_toList, hmake]
    rfl

def piece (command : Command) : List UInt8 :=
  Utf8.encode command.line.toList ++ [13]

def transcript (commands : List Command) : List UInt8 :=
  commands.flatMap fun command => LineBuffer.encode command.line

end Command

def Operation.line? : Operation → Option String
  | .writeLine text => some text
  | _ => none

def Wait.left : Wait → List UInt8
  | .transmit _ rest => rest
  | _ => []

def Wait.gone : Wait → Answer → List UInt8
  | .transmit _ rest, .took count => rest.take count
  | _, _ => []

def Progress.left : Progress → List UInt8
  | .blocked wait => wait.left
  | .done _ => []

namespace Transport

/-- A transport with these operations queued, whatever has been asked of it since. The commands asked
for and the bytes sent are counted. -/
inductive Sending (first : Transport) : List Command → List UInt8 → Transport × Progress → Prop
  | start (notice : Option Notice) : Sending first [] [] (first, .done notice)
  | commanded {commands sent t t' progress} (command : Command) :
      Sending first commands sent (t, progress) → t.request (.writeLine command.line) = .ok t' →
      Sending first (commands ++ [command]) sent (t', progress)
  | asked {commands sent t t' progress op} : Sending first commands sent (t, progress) →
      op.line? = none → t.request op = .ok t' → Sending first commands sent (t', progress)
  | begins {commands sent t t' notice op} : Sending first commands sent (t, .done notice) →
      t.next? = some (op, t') → Sending first commands sent (t'.begin op)
  | resumes {commands sent t wait answer x} : Sending first commands sent (t, .blocked wait) →
      t.resume wait answer = some x → Sending first commands (sent ++ wait.gone answer) x

def outstanding (t : Transport) : List String :=
  t.queue.filterMap Operation.line?

def Dead (x : Transport × Progress) : Prop :=
  x.1.isOpen = false ∧ x.1.queue = [] ∧ ∃ notice, x.2 = .done notice

/-- An operation has failed for good, or it has left the queue its lines and has these bytes to send. -/
def Proceeds (t : Transport) (bytes : List UInt8) (x : Transport × Progress) : Prop :=
  Dead x ∨ x.1.outstanding = t.outstanding ∧ x.2.left = bytes

theorem proceeds_fatal (t u : Transport) (bytes : List UInt8) (message : String) :
    Proceeds t bytes (u.fatal message) :=
  Or.inl ⟨rfl, rfl, _, rfl⟩

theorem proceeds_finish {t u : Transport} (h : u.outstanding = t.outstanding) (notice : Notice) :
    Proceeds t [] (u.finish notice) :=
  Or.inr ⟨h, rfl⟩

theorem ReadsOn.proceeds {t u : Transport} {x : Transport × Progress} (reads : ReadsOn u x)
    (h : u.outstanding = t.outstanding) : Proceeds t [] x := by
  cases reads with
  | line _ _ => exact proceeds_finish h _
  | fails message => exact proceeds_fatal t u [] message
  | waits _ _ _ => exact Or.inr ⟨h, rfl⟩

theorem proceeds_begin (t : Transport) (op : Operation) :
    Proceeds t (op.line?.elim [] LineBuffer.encode) (t.begin op) := by
  have begins := t.begin_begins op
  generalize t.begin op = x at begins ⊢
  cases begins with
  | looksUp | dials _ | negotiates _ _ _ | transmits _ _ => exact Or.inr ⟨rfl, rfl⟩
  | reads reads => exact reads.proceeds rfl
  | fails _ message => exact proceeds_fatal t t _ message

theorem outstanding_pushFront {t : Transport} {op : Operation} (h : op.line? = none) :
    (t.pushFront op).outstanding = t.outstanding := by
  simp [outstanding, pushFront, h]

theorem outstanding_push (t : Transport) (op : Operation) :
    (t.push op).outstanding = t.outstanding ++ op.line?.toList := by
  cases op <;> simp [outstanding, push, Operation.line?]

/-- What an answer leaves to be sent is what did not go out with it; nothing more goes out with a
failure. -/
theorem proceeds_resume {t : Transport} {wait : Wait} {answer : Answer} {x : Transport × Progress}
    (h : t.resume wait answer = some x) :
    ∃ bytes, wait.left = wait.gone answer ++ bytes ∧ Proceeds t bytes x := by
  cases resume_resumes h with
  | finds _ _ _ _ => exact ⟨[], rfl, Or.inr ⟨outstanding_pushFront rfl, rfl⟩⟩
  | passesOver _ _ _ => exact ⟨[], rfl, proceeds_finish (outstanding_pushFront rfl) _⟩
  | connects _ _ | exhausts _ _ _ | secures _ _ => exact ⟨[], rfl, proceeds_finish rfl _⟩
  | @writes _ rest count hempty =>
    refine ⟨rest.drop count, (List.take_append_drop count rest).symm, ?_⟩
    rw [hempty]
    exact proceeds_finish rfl _
  | @writesOn _ rest count _ =>
    exact ⟨rest.drop count, (List.take_append_drop count rest).symm, Or.inr ⟨rfl, rfl⟩⟩
  | reads _ _ reads => exact ⟨[], rfl, reads.proceeds rfl⟩
  | fails wait message hfails =>
    have hgone : wait.gone answer = [] := by
      cases wait with
      | transmit stream rest =>
        cases answer with
        | took count => simp [Answer.succeeds] at hfails
        | _ => rfl
      | _ => rfl
    exact ⟨wait.left, by rw [hgone]; rfl, proceeds_fatal t t _ message⟩

/-- The commands begun have gone out or are about to, and the others wait in the queue; or the
connection is lost, and only so much has gone out. -/
inductive Accounts (commands : List Command) (sent : List UInt8) (x : Transport × Progress) : Prop
  | alive (begun waiting : List Command) : commands = begun ++ waiting →
      x.1.outstanding = waiting.map Command.line → sent ++ x.2.left = Command.transcript begun →
      Accounts commands sent x
  | dead : Dead x → sent <+: Command.transcript commands → Accounts commands sent x

variable {first t : Transport} {commands : List Command} {sent : List UInt8} {progress : Progress}
  {x : Transport × Progress}

theorem transcript_append (commands more : List Command) :
    Command.transcript (commands ++ more) = Command.transcript commands ++ Command.transcript more :=
  List.flatMap_append

theorem Accounts.complete {notice : Option Notice} (h : Accounts commands sent (t, .done notice))
    (hopen : t.isOpen = true) (empty : t.queue = []) : sent = Command.transcript commands := by
  cases h with
  | alive begun waiting hcommands hwaiting hsent =>
    have hnone : waiting = [] := by
      rw [outstanding, empty] at hwaiting
      exact List.map_eq_nil_iff.mp hwaiting.symm
    rw [hcommands, hnone, List.append_nil, ← hsent]
    exact (List.append_nil sent).symm
  | dead dead _ => exact absurd hopen (by rw [show t.isOpen = false from dead.1]; decide)

theorem Accounts.proceeds {notice : Option Notice} {op : Operation} {t' : Transport}
    (h : Accounts commands sent (t, .done notice)) (hnext : t.next? = some (op, t')) :
    Accounts commands sent (t'.begin op) := by
  have hqueue : t.queue = op :: t'.queue := by
    unfold next? at hnext
    split at hnext
    next => cases hnext
    next hq => cases hnext; exact hq
  have houtstanding : t.outstanding = op.line?.toList ++ t'.outstanding := by
    rw [outstanding, hqueue]
    cases op <;> rfl
  cases h with
  -- A lost connection has nothing to begin.
  | dead dead _ => exact absurd (hqueue.symm.trans dead.2.1) (by simp)
  | alive begun waiting hcommands hwaiting hsent =>
    dsimp only [Progress.left] at hwaiting hsent
    rw [List.append_nil] at hsent
    rcases proceeds_begin t' op with dead | ⟨hout, hleft⟩
    · refine .dead dead ?_
      rw [hcommands, transcript_append, hsent]
      exact List.prefix_append _ _
    · cases hline : op.line? with
      | none =>
        refine .alive begun waiting hcommands ?_ ?_
        · rw [hout, ← hwaiting, houtstanding, hline]
          rfl
        · rw [hleft, hline, hsent]
          exact List.append_nil _
      | some line =>
        -- The line in front is that of the first command that waits, and it is begun now.
        rw [houtstanding, hline] at hwaiting
        obtain ⟨command, waiting, rfl, hcommand, hrest⟩ := List.map_eq_cons_iff.mp hwaiting.symm
        refine .alive (begun ++ [command]) waiting (by simp [hcommands]) (hout.trans hrest.symm) ?_
        rw [hleft, hline, hsent, transcript_append]
        simp [Command.transcript, hcommand]

theorem request_ok {op : Operation} {t' : Transport} (h : t.request op = .ok t') :
    t.isOpen = true ∧ t' = t.push op := by
  unfold request at h
  split at h
  next hopen => exact ⟨hopen, (Except.ok.inj h).symm⟩
  next => cases h

theorem Accounts.request {op : Operation} {t' : Transport} {more : List Command}
    (h : Accounts commands sent (t, progress)) (hmore : op.line?.toList = more.map Command.line)
    (hrequest : t.request op = .ok t') : Accounts (commands ++ more) sent (t', progress) := by
  obtain ⟨hopen, rfl⟩ := request_ok hrequest
  cases h with
  | alive begun waiting hcommands hwaiting hsent =>
    refine .alive begun (waiting ++ more) (by rw [hcommands, List.append_assoc]) ?_ hsent
    rw [outstanding_push, hmore, List.map_append]
    exact congrArg (· ++ _) hwaiting
  | dead dead _ => exact absurd hopen (by rw [show t.isOpen = false from dead.1]; decide)

theorem Accounts.resume {wait : Wait} {answer : Answer} (h : Accounts commands sent (t, .blocked wait))
    (hx : t.resume wait answer = some x) : Accounts commands (sent ++ wait.gone answer) x := by
  cases h with
  | dead dead _ =>
    obtain ⟨_, _, notice, hdone⟩ := dead
    cases hdone
  | alive begun waiting hcommands hwaiting hsent =>
    obtain ⟨bytes, hleft, dead | ⟨hout, hbytes⟩⟩ := proceeds_resume hx
    all_goals
      rw [show (Progress.blocked wait).left = wait.left from rfl, hleft, ← List.append_assoc] at hsent
    · -- What was begun and has not gone out is lost, with all that waits.
      refine .dead dead ?_
      rw [hcommands, transcript_append, ← hsent, List.append_assoc]
      exact List.prefix_append _ _
    · exact .alive begun waiting hcommands (hout.trans hwaiting) (by rw [hbytes, hsent])

theorem Sending.accounts (unwritten : first.outstanding = []) (h : Sending first commands sent x) :
    Accounts commands sent x := by
  induction h with
  | start notice => exact .alive [] [] rfl unwritten rfl
  | commanded command _ hrequest ih => exact ih.request rfl hrequest
  | @asked commands sent t t' progress op _ hline hrequest ih =>
    have hnone : op.line?.toList = ([] : List Command).map Command.line := by
      rw [hline]
      rfl
    simpa using ih.request hnone hrequest
  | begins _ hnext ih => exact ih.proceeds hnext
  | resumes _ hx ih => exact ih.resume hx

end Transport

end FtpControl
