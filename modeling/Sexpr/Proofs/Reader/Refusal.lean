import Sexpr.Proofs.Form.Order
import Sexpr.Proofs.Reader.Simulation

/-! Reading in runs that go through the entries of maps in orders of their own. All of them read the same
forms, or refuse the tokens for one cause; only the text of a key without a value is each run's own. -/
namespace Sexpr

/-- Why nothing is read. -/
inductive Refusal where
  | error (e : Error)
  | danglingKey (key : Form)

namespace Refusal

variable {c : Refusal} {key : Form} {e : Error}

/-- The error of a run, which shows a key as the run visits it. -/
def report [Visiting] : Refusal → Error
  | error e => e
  | danglingKey key => .danglingKey key.shown

/-- For a key without a value there are as many errors as there are orders of its entries. -/
theorem exists_report_danglingKey_iff : (∃ v : Visiting, @report v (danglingKey key) = e) ↔
    ∃ g, Form.Reordered key g ∧ e = .danglingKey (g.print .plain) := by
  constructor
  · rintro ⟨v, rfl⟩
    exact ⟨key.visited v, Form.reordered_visited v key, rfl⟩
  · rintro ⟨g, hg, rfl⟩
    obtain ⟨v, rfl⟩ := Form.exists_visited_iff.mpr hg
    exact ⟨v, rfl⟩

/-- The messages of two runs are equally long. -/
theorem utf8ByteSize_message_report (v w : Visiting) (c : Refusal) :
    (@report v c).message.utf8ByteSize = (@report w c).message.utf8ByteSize := by
  cases c with
  | error e => simp only [report]
  | danglingKey key =>
    have hmessage (u : Visiting) : (@report u (danglingKey key)).message =
        "Map literal has a key without a value: " ++ @Form.shown u key := rfl
    rw [hmessage v, hmessage w, String.utf8ByteSize_append, String.utf8ByteSize_append,
      Form.utf8ByteSize_shown v w key]

end Refusal

/-- What all runs make of some tokens: the same forms, or a refusal that each reports in its own way. -/
def TokensRead (tokens : List Token) (r : Except Refusal (List Form)) : Prop :=
  ∀ v : Visiting, @readTokens v tokens = r.mapError (@Refusal.report v)

/-- What all runs make of a text. -/
def Reads (text : String) (r : Except Refusal (List Form)) : Prop :=
  ∀ v : Visiting, @read v text = r.mapError (@Refusal.report v)

namespace Machine

variable {m : Machine} {token : Token}

theorem exists_close (frame : Frame) :
    ∃ r : Except Refusal Form, ∀ [Visiting], frame.close = r.mapError Refusal.report := by
  cases frame with
  | list items => exact ⟨.ok _, rfl⟩
  | array items => exact ⟨.ok _, rfl⟩
  | map entries key =>
    cases key with
    | none => exact ⟨.ok _, rfl⟩
    | some key => exact ⟨.error (.danglingKey key), rfl⟩

/-- A step depends on the run only where a map is closed that has a key without a value. -/
theorem exists_step (m : Machine) (token : Token) :
    ∃ r : Except Refusal Machine, ∀ [Visiting], m.step token = r.mapError Refusal.report := by
  by_cases hc : m.closes token
  · obtain ⟨frame, hframe, rfl⟩ := hc
    obtain ⟨frames, found⟩ := m
    cases frames with
    | nil => cases hframe
    | cons inner frames =>
      cases hframe
      obtain ⟨r, hclose⟩ := exists_close frame
      refine ⟨r.map fun f => deliver f ⟨frames, found⟩, ?_⟩
      intro _
      rw [step_closer, hclose]
      cases r <;> rfl
  · refine ⟨(m.take token).mapError .error, ?_⟩
    intro _
    rw [step_eq_take hc]
    cases m.take token <;> rfl

theorem exists_run (m : Machine) (tokens : List Token) :
    ∃ r : Except Refusal Machine, ∀ [Visiting], m.run tokens = r.mapError Refusal.report := by
  induction tokens generalizing m with
  | nil => exact ⟨.ok m, rfl⟩
  | cons token tokens ih =>
    obtain ⟨r, hstep⟩ := exists_step m token
    cases r with
    | error c =>
      refine ⟨.error c, ?_⟩
      intro _
      rw [run, hstep]
      rfl
    | ok n =>
      obtain ⟨r, hrun⟩ := ih n
      refine ⟨r, ?_⟩
      intro _
      rw [run, hstep]
      exact hrun

end Machine

/-- Whatever the tokens, all runs make the same of them. -/
theorem exists_tokensRead (tokens : List Token) : ∃ r, TokensRead tokens r := by
  obtain ⟨r, hrun⟩ := Machine.start.exists_run tokens
  have hread [Visiting] : readTokens tokens = (r.mapError Refusal.report).bind Machine.result := by
    rw [readTokens_eq_machine, Machine.read, Machine.finish, hrun]
    cases r <;> rfl
  cases r with
  | error c => exact ⟨.error c, fun _ => hread⟩
  | ok m =>
    obtain ⟨frames, found⟩ := m
    cases frames with
    | nil => exact ⟨.ok found.reverse, fun _ => hread⟩
    | cons frame frames => exact ⟨.error (.error .unbalanced), fun _ => hread⟩

theorem exists_reads (text : String) : ∃ r, Reads text r := exists_tokensRead (tokenize text)

theorem readOrNone_of_reads {text : String} {r : Except Refusal (List Form)} (h : Reads text r)
    (v : Visiting) : @readOrNone v text = r.toOption.getD [] := by
  rw [readOrNone, h v]
  cases r <;> rfl

/-- What one run has read, all runs read. -/
theorem reads_of_read_ok {v : Visiting} {text : String} {fs : List Form}
    (h : @read v text = .ok fs) : Reads text (.ok fs) := by
  obtain ⟨r, hr⟩ := exists_reads text
  have hself := (hr v).symm.trans h
  cases r with
  | error c => cases hself
  | ok gs =>
    cases hself
    exact hr

/-- What one run has refused, all runs refuse for the same cause. -/
theorem reads_of_read_error {v : Visiting} {text : String} {e : Error}
    (h : @read v text = .error e) : ∃ c : Refusal, e = c.report ∧ Reads text (.error c) := by
  obtain ⟨r, hr⟩ := exists_reads text
  have hself := (hr v).symm.trans h
  cases r with
  | error c =>
    cases hself
    exact ⟨c, rfl, hr⟩
  | ok gs => cases hself

/-- Two runs read the same forms from a text, or it is refused in both. Then their messages are equally
long, and their errors the same but where they show one key with its entries in two orders. -/
theorem runs_agree (v w : Visiting) (text : String) :
    (∃ fs, @read v text = .ok fs ∧ @read w text = .ok fs) ∨
      ∃ d e, @read v text = .error d ∧ @read w text = .error e ∧
        d.message.utf8ByteSize = e.message.utf8ByteSize ∧
        (d = e ∨ ∃ key f g, Form.Reordered key f ∧ Form.Reordered key g ∧
          d = .danglingKey (f.print .plain) ∧ e = .danglingKey (g.print .plain)) := by
  obtain ⟨r, hr⟩ := exists_reads text
  cases r with
  | ok fs => exact .inl ⟨fs, hr v, hr w⟩
  | error c =>
    refine .inr ⟨_, _, hr v, hr w, Refusal.utf8ByteSize_message_report v w c, ?_⟩
    cases c with
    | error e => exact .inl rfl
    | danglingKey key =>
      exact .inr ⟨key, key.visited v, key.visited w, Form.reordered_visited v key,
        Form.reordered_visited w key, rfl, rfl⟩

/-- Each order of the entries of a key without a value is shown by some run. -/
theorem exists_run_iff {text : String} {key : Form} {e : Error}
    (h : Reads text (.error (.danglingKey key))) : (∃ v : Visiting, @read v text = .error e) ↔
      ∃ g, Form.Reordered key g ∧ e = .danglingKey (g.print .plain) := by
  rw [← Refusal.exists_report_danglingKey_iff]
  refine exists_congr fun v => ?_
  rw [h v]
  exact ⟨Except.error.inj, congrArg Except.error⟩

end Sexpr
