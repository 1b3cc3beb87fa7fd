import StoredRoutine.Proofs.Outcome
import StoredRoutine.Proofs.StatementLines
import StoredRoutine.Scratch.Database
import StoredRoutine.Scratch.Embedded

/-!
Running the statements of a script on a connection: when the script succeeds, and what the
connection is asked to do.
-/
namespace StoredRoutine

/-!
Running the statements of a script on a connection, one after the other. A script that succeeds is
one whose statements were all answered, and what they did is then committed.
-/

namespace Scratch

variable {κ : Type} [Connection κ]

/-- Statements that a connection answered in their order, none of them with a failure. -/
inductive Executed : List Script.Statement → κ → κ → Prop where
  | nil {c : κ} : Executed [] c c
  | cons {s : Script.Statement} {ss : List Script.Statement} {c c' c'' : κ} {rows : List Row}
    (head : Connection.execute s.text c = (.ok rows, c')) (tail : Executed ss c' c'') :
    Executed (s :: ss) c c''

/-- The statements that a connection answers lead it to one place only. -/
theorem Executed.unique {ss : List Script.Statement} {c c' c'' : κ} (h : Executed ss c c')
    (h' : Executed ss c c'') : c' = c'' := by
  induction h with
  | nil =>
    cases h'
    rfl
  | cons head tail ih =>
    cases h' with
    | cons head' tail' =>
      obtain ⟨-, rfl⟩ := Prod.mk.inj (head.symm.trans head')
      exact ih tail'

/-- The failure of a statement that was refused, once what was not committed was to be undone. -/
def Failure.ofRefused (f : StatementFailure) : Except Raised Unit → Failure
  | .ok () => .statement f
  | .error fault => .raised fault

namespace Database

omit [Connection κ] in
theorem onConnection_apply {α : Type} (f : κ → Except Failure α × κ) (c : κ) :
    onConnection f ⟨c, true⟩ = ((f c).1, ⟨(f c).2, true⟩) := rfl

theorem sendFrom_apply_of_ok {s : Script.Statement} {c c' : κ} {rows : List Row}
    (h : Connection.execute s.text c = (.ok rows, c')) :
    sendFrom s ⟨c, true⟩ = (.ok rows, ⟨c', true⟩) := by
  rw [sendFrom, Task.mapError_apply, send, onConnection_apply, h]
  rfl

/-- How a statement of a script ends that a connection does not answer: with a failure, and with the
connection as it is then. -/
inductive Stopped (s : Script.Statement) (c : κ) : Failure → κ → Prop where
  | refused {text : String} {c' c'' : κ} {answer : Except Raised Unit}
    (refused : Connection.execute s.text c = (.error (.refused text), c'))
    (undone : Connection.rollback c' = (answer, c'')) :
    Stopped s c (.ofRefused ⟨text, s.text, some s.line⟩ answer) c''
  | raised {fault : Raised} {c' : κ}
    (raised : Connection.execute s.text c = (.error (.raised fault), c')) :
    Stopped s c (.raised fault) c'

theorem Stopped.not_answered {s : Script.Statement} {c c' c'' : κ} {f : Failure} {rows : List Row}
    (h : Stopped s c f c') : Connection.execute s.text c ≠ (.ok rows, c'') := by
  cases h with
  | refused refused _ => simp [refused]
  | raised raised => simp [raised]

/-- A statement is answered, or it stops the script. -/
theorem sendFrom_cases (s : Script.Statement) (c : κ) :
    (∃ rows c', Connection.execute s.text c = (.ok rows, c') ∧
      sendFrom s ⟨c, true⟩ = (.ok rows, ⟨c', true⟩)) ∨
    ∃ f c', Stopped s c f c' ∧ sendFrom s ⟨c, true⟩ = (.error f, ⟨c', true⟩) := by
  obtain ⟨answer, c', hs⟩ : ∃ answer c', Connection.execute s.text c = (answer, c') :=
    ⟨_, _, rfl⟩
  cases answer with
  | ok rows => exact .inl ⟨rows, c', hs, sendFrom_apply_of_ok hs⟩
  | error objection =>
    cases objection with
    | raised fault =>
      refine .inr ⟨_, c', .raised hs, ?_⟩
      rw [sendFrom, Task.mapError_apply, send, onConnection_apply, hs]
      rfl
    | refused text =>
      obtain ⟨undone, c'', hu⟩ : ∃ undone c'', Connection.rollback c' = (undone, c'') :=
        ⟨_, _, rfl⟩
      refine .inr ⟨_, c'', .refused hs hu, ?_⟩
      rw [sendFrom, Task.mapError_apply, send, onConnection_apply, hs]
      cases undone <;> simp only [refuse, hu] <;> rfl

/-- Statements are sent up to the first that the connection does not answer. -/
theorem sendEach_cases (ss : List Script.Statement) (c : κ) :
    (∃ c', Executed ss c c' ∧ sendEach ss ⟨c, true⟩ = (.ok (), ⟨c', true⟩)) ∨
    ∃ before s after c' f c'', ss = before ++ s :: after ∧ Executed before c c' ∧
      Stopped s c' f c'' ∧ sendEach ss ⟨c, true⟩ = (.error f, ⟨c'', true⟩) := by
  induction ss generalizing c with
  | nil => exact .inl ⟨c, .nil, rfl⟩
  | cons s ss ih =>
    rw [sendEach]
    rcases sendFrom_cases s c with ⟨rows, c', hs, hsent⟩ | ⟨f, c', hs, hsent⟩
    · rw [Task.bind_apply_of_ok hsent]
      rcases ih c' with ⟨c'', hexecuted, hrest⟩ |
        ⟨before, s', after, c'', f, c₁, rfl, hexecuted, hstopped, hrest⟩
      · exact .inl ⟨c'', .cons hs hexecuted, hrest⟩
      · exact .inr ⟨s :: before, s', after, c'', f, c₁, rfl, .cons hs hexecuted, hstopped, hrest⟩
    · rw [Task.bind_apply_of_error hsent]
      exact .inr ⟨[], s, ss, c, f, c', rfl, .nil, hs, rfl⟩

/-- All statements of a script are answered, and what they did is then committed if it can be; or one
of them is not answered, and stops the script. -/
theorem executeScript_cases (script : Text) (c : κ) :
    (∃ c' answer c'', Executed (Script.statements script) c c' ∧
      Connection.commit c' = (answer, c'') ∧ executeScript script ⟨c, true⟩ =
        ((answer.mapError .raised).map fun _ => (Script.statements script).length,
          ⟨c'', true⟩)) ∨
    ∃ before s after c' f c'', Script.statements script = before ++ s :: after ∧
      Executed before c c' ∧ Stopped s c' f c'' ∧
      executeScript script ⟨c, true⟩ = (.error f, ⟨c'', true⟩) := by
  rw [executeScript]
  rcases sendEach_cases (Script.statements script) c with
    ⟨c', hexecuted, hsent⟩ | ⟨before, s, after, c', f, c'', hs, hexecuted, hstopped, hsent⟩
  · obtain ⟨answer, c'', hc⟩ : ∃ answer c'', Connection.commit c' = (answer, c'') := ⟨_, _, rfl⟩
    have hcommit : (commit : Work κ Unit) ⟨c', true⟩ = (answer.mapError .raised, ⟨c'', true⟩) := by
      rw [commit, onConnection_apply, hc]
    refine .inl ⟨c', answer, c'', hexecuted, hc, ?_⟩
    rw [Task.bind_apply_of_ok hsent]
    cases answer with
    | ok _ => rw [Task.bind_apply_of_ok hcommit, Task.pure_apply]; rfl
    | error fault => rw [Task.bind_apply_of_error hcommit]; rfl
  · exact .inr ⟨before, s, after, c', f, c'', hs, hexecuted, hstopped,
      Task.bind_apply_of_error hsent⟩

/-- A connection does not answer all of some statements if it does not answer one of them. -/
theorem Stopped.not_executed {before after : List Script.Statement} {s : Script.Statement}
    {c c' c'' : κ} {f : Failure} (h : Stopped s c' f c'') (hb : Executed before c c') (d : κ) :
    ¬ Executed (before ++ s :: after) c d := by
  intro hall
  induction hb with
  | nil =>
    cases hall with
    | cons head _ => exact h.not_answered head
  | cons head tail ih =>
    cases hall with
    | cons head' tail' =>
      obtain ⟨-, rfl⟩ := Prod.mk.inj (head.symm.trans head')
      exact ih h tail'

/-- A script succeeds exactly if all its statements are answered, and are committed then. -/
theorem executeScript_eq_ok_iff {script : Text} {c : κ} {n : Nat} {db : Database κ} :
    executeScript script ⟨c, true⟩ = (.ok n, db) ↔
      n = (Script.statements script).length ∧
        ∃ c' c'', Executed (Script.statements script) c c' ∧
          Connection.commit c' = (.ok (), c'') ∧ db = ⟨c'', true⟩ := by
  rcases executeScript_cases script c with
    ⟨c', answer, c'', hexecuted, hc, hrun⟩ | ⟨before, s, after, c', f, c'', hs, hb, hstopped, hrun⟩
  · rw [hrun]
    constructor
    · intro h
      obtain ⟨hn, rfl⟩ := Prod.mk.inj h
      cases answer with
      | ok _ => exact ⟨(Except.ok.inj hn).symm, c', c'', hexecuted, hc, rfl⟩
      | error fault => cases hn
    · rintro ⟨rfl, d, d', hexecuted', hd, rfl⟩
      obtain rfl := hexecuted.unique hexecuted'
      obtain ⟨rfl, rfl⟩ := Prod.mk.inj (hc.symm.trans hd)
      rfl
  · rw [hrun]
    refine iff_of_false (fun h => nomatch (Prod.mk.inj h).1) ?_
    rintro ⟨-, d, -, hexecuted, -⟩
    rw [hs] at hexecuted
    exact hstopped.not_executed hb d hexecuted

end Database

/-- A text that starts no statement is refused by every connection of the embedded engine. -/
theorem execute_of_fault {text : Text} {fault : Sql.SyntaxFault}
    (hnul : text.contains '\x00' = false)
    (hreading : Sql.Reading.ofTokens (Sql.cut text).1 = ⟨.nothing, some fault⟩) (c : Embedded) :
    c.execute text = (.error (.unreadable fault), c) := by
  have houtcome : c.outcome text = .error (.unreadable fault) := by
    obtain ⟨tokens, rest, hcut⟩ : ∃ tokens rest, Sql.cut text = (tokens, rest) := ⟨_, _, rfl⟩
    rw [hcut] at hreading
    rw [Embedded.outcome, hnul, hcut]
    simp only [Bool.false_eq_true, if_false]
    rw [hreading]
    rfl
  rw [Embedded.execute, houtcome]

end Scratch

/-!
What a connection is asked to do while a script runs on it. It is sent the statements one after the
other, up to the first that it does not answer; then it is asked once to keep what they did, or once
to undo it, and nothing else.
-/

namespace Scratch

section Trace

variable {κ : Type} [Connection κ]

/-- What a traced connection answers and keeps when it is sent a statement. -/
theorem Traced.execute_eq (statement : Text) (c : Traced κ) :
    ∃ answer inner, Connection.execute statement c.inner = (answer, inner) ∧
      Connection.execute statement c = (answer, c.record inner [.executed statement]) :=
  ⟨_, _, rfl, rfl⟩

/-- A traced connection answers as the one inside of it, and keeps what it was sent. -/
theorem Executed.of_traced {ss : List Script.Statement} {c c' : Traced κ} (h : Executed ss c c') :
    Executed ss c.inner c'.inner ∧ c'.events = c.events ++ ss.map fun s => Event.executed s.text := by
  induction h with
  | nil => exact ⟨.nil, by simp⟩
  | @cons s ss c c' c'' rows head tail ih =>
    obtain ⟨answer, inner, hinner, htraced⟩ := Traced.execute_eq s.text c
    obtain ⟨rfl, rfl⟩ := Prod.mk.inj (htraced.symm.trans head)
    refine ⟨.cons hinner ih.1, ?_⟩
    rw [ih.2, Traced.record, List.append_assoc, List.map_cons]
    rfl

end Trace

/-- How a script ends on a connection: with an outcome, with the connection as it is then, and with what
the connection was asked to do meanwhile. -/
inductive Ends {κ : Type} [Connection κ] (script : Text) (c : κ) :
    Except Failure Nat → κ → List Event → Prop where
  /-- All statements were answered, and what they did was to be committed. -/
  | answered {c' c'' : κ} {answer : Except Raised Unit}
    (executed : Executed (Script.statements script) c c')
    (committed : Connection.commit c' = (answer, c'')) :
    Ends script c ((answer.mapError .raised).map fun _ => (Script.statements script).length) c''
      ((Script.statementTexts script).map Event.executed ++ [.committed])
  /-- A statement was refused, and what was not committed was to be undone. -/
  | refused {before after : List Script.Fragment} {f : Script.Fragment} {c' c'' d : κ}
    {text : String} {answer : Except Raised Unit} {failure : StatementFailure}
    (split : Script.executed script = before ++ f :: after)
    (executed : Executed (before.map fun g => ⟨g.text.trim, Text.lineAt script g.start⟩) c c')
    (refused : Connection.execute f.text.trim c' = (.error (.refused text), c''))
    (undone : Connection.rollback c'' = (answer, d))
    (names : failure = ⟨text, f.text.trim, some (Text.lineAt script f.start)⟩)
    (stands : f.text.trim <+: script.drop f.start)
    (message : failure.message =
      text ++ ", at line " ++ toString (Text.lineAt script f.start) ++ ".") :
    Ends script c (.error (.ofRefused failure answer)) d
      (before.map (fun g => Event.executed g.text.trim) ++ [.executed f.text.trim, .rolledBack])
  /-- What was said about a statement was no answer to it. -/
  | raised {before after : List Script.Fragment} {f : Script.Fragment} {c' c'' : κ}
    {fault : Raised}
    (split : Script.executed script = before ++ f :: after)
    (executed : Executed (before.map fun g => ⟨g.text.trim, Text.lineAt script g.start⟩) c c')
    (raised : Connection.execute f.text.trim c' = (.error (.raised fault), c'')) :
    Ends script c (.error (.raised fault)) c''
      (before.map (fun g => Event.executed g.text.trim) ++ [.executed f.text.trim])

/-- A script runs on a connection up to the first of its statements that is not answered. If there is
none, all of them were sent, in their order, and what they did is then committed, once. Else the
statements up to that one were sent, and if the connection refused it, one rollback follows; the
failure tells the text of that statement, the line on which it starts in the script, and what the
connection said. -/
theorem executeScript_ends_once {κ : Type} [Connection κ] (script : Text) (c : Traced κ) :
    ∃ outcome inner events, Ends script c.inner outcome inner events ∧
      Database.executeScript script ⟨c, true⟩ =
        (outcome, ⟨⟨inner, c.events ++ events⟩, true⟩) := by
  rcases Database.executeScript_cases script c with
    ⟨c', answer, c'', hexecuted, hc, hrun⟩ | ⟨before, s, after, c', f, c'', hs, hb, hstopped, hrun⟩
  · obtain ⟨hinner, hevents⟩ := hexecuted.of_traced
    obtain ⟨answer', inner, hcommit⟩ : ∃ answer' inner,
        Connection.commit c'.inner = (answer', inner) := ⟨_, _, rfl⟩
    have htraced : Connection.commit c' = (answer', c'.record inner [.committed]) := by
      simp only [Connection.commit, hcommit]
    obtain ⟨rfl, rfl⟩ := Prod.mk.inj (htraced.symm.trans hc)
    refine ⟨_, inner, _, .answered hinner hcommit, ?_⟩
    rw [hrun, Traced.record, hevents, Script.statementTexts, List.map_map, List.append_assoc]
    rfl
  · rw [Script.statements_eq_map_executed] at hs
    obtain ⟨before, rest, hsplit, rfl, hrest⟩ := List.map_eq_append_iff.1 hs
    obtain ⟨g, after, rfl, rfl, -⟩ := List.map_eq_cons_iff.1 hrest
    obtain ⟨hinner, hevents⟩ := hb.of_traced
    obtain ⟨answer, inner, hanswer, htraced⟩ := Traced.execute_eq g.text.trim c'
    have hstands : g.text.trim <+: script.drop g.start :=
      Script.trim_prefix_of_mem_executed (by rw [hsplit]; simp)
    -- after the statement that stopped the script, a rollback is all that there may be
    have hundone : ∀ {answer : Except Raised Unit} {d : Traced κ},
        Connection.rollback (c'.record inner [.executed g.text.trim]) = (answer, d) →
        ∃ last, Connection.rollback inner = (answer, last) ∧ d = ⟨last, c.events ++
          (before.map (fun g => Event.executed g.text.trim) ++
            [.executed g.text.trim, .rolledBack])⟩ := fun hd => by
      obtain ⟨rfl, rfl⟩ := Prod.mk.inj hd
      refine ⟨_, rfl, ?_⟩
      simp only [Traced.record, hevents, List.map_map, List.append_assoc]
      rfl
    cases hstopped with
    | @refused text _ _ _ refused undone =>
      obtain ⟨rfl, rfl⟩ := Prod.mk.inj (htraced.symm.trans refused)
      obtain ⟨last, hlast, rfl⟩ := hundone undone
      exact ⟨_, last, _, .refused hsplit hinner hanswer hlast rfl hstands rfl, hrun⟩
    | @raised fault _ raised =>
      obtain ⟨rfl, rfl⟩ := Prod.mk.inj (htraced.symm.trans raised)
      refine ⟨_, inner, _, .raised hsplit hinner hanswer, hrun.trans ?_⟩
      simp only [Traced.record, hevents, List.map_map, List.append_assoc]
      rfl

end Scratch

end StoredRoutine
