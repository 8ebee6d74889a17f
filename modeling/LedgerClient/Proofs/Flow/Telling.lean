/-
  The course of a run: what it tells the user, and what it reads again.

  * `Desk.standing` is what runs alone change: the flag, the balances and the notices. While a run
    is under way, everything else on the desk may be changed by others at any time;
  * `Acts` says which account acts in a run, and `Refreshes` what one invocation of the refresher
    asks and what it brings;
  * `perform_course`, `refresh_course_iff` and `conclude_course_iff` say what becomes of the parts
    of a run, and `run_course_iff` puts them together.
-/
import LedgerClient.Proofs.Connection.Update
import LedgerClient.Proofs.Flow.Parts
import LedgerClient.Proofs.Job.Course

namespace LedgerClient

open Job

/-- What was asked outside, with the answers. -/
abbrev Talk := List (Answered Question.Answer)

/-- Whether a question has the ledger read again. -/
def Question.isReading : Question → Bool
  | entities _ | refresh => true
  | _ => false

namespace Desk

/-- What runs alone change. -/
def standing (d : Desk) : Bool × Option Balances × List Notice :=
  (d.busy, d.balances, d.notices)

theorem setPhase_congr (phase : Phase) (d d₁ : Desk) (h : d₁.standing = d.standing) :
    (d₁.setPhase phase).standing = (d.setPhase phase).standing := h

theorem setBusy_congr (busy : Bool) (d d₁ : Desk) (h : d₁.standing = d.standing) :
    (d₁.setBusy busy).standing = (d.setBusy busy).standing := by
  simp_all [standing, setBusy]

theorem notify_congr (notice : Notice) (d d₁ : Desk) (h : d₁.standing = d.standing) :
    (d₁.notify notice).standing = (d.notify notice).standing := by
  simp_all [standing, notify]

end Desk

/-! ## Performing -/

namespace Flow

/-- The account that acts in a run with this talk: the first one of those that the wallet reports
    when it is asked, before anything else. A manifest in its name is handed over. -/
structure Acts (f : Flow) (op : Operation) (talk : Talk) (account : AccountRef) : Prop where
  reported : ∃ accounts later, talk = ⟨.accounts, .ok accounts⟩ :: later ∧
    Connection.IsFirst accounts (some account)
  signed : ∃ manifest reply, op.build account f.addresses = .ok manifest ∧
    ⟨.sign (Transaction.requestFor f.message manifest), reply⟩ ∈ talk

theorem Acts.append {f : Flow} {op : Operation} {earlier : Talk} {account : AccountRef}
    (h : f.Acts op earlier account) (later : Talk) : f.Acts op (earlier ++ later) account := by
  obtain ⟨⟨accounts, rest, rfl, hfirst⟩, manifest, reply, hbuilt, hsigned⟩ := h
  exact ⟨⟨accounts, rest ++ later, rfl, hfirst⟩, manifest, reply, hbuilt,
    List.mem_append_left later hsigned⟩

/-- Work that leaves alone what is standing, and reads nothing again. -/
def Aside {α : Type} (work : Work α) : Prop :=
  work.Within (fun change => ∀ d, (change d).standing = d.standing) fun q => q.isReading = false

theorem prepare_aside (f : Flow) (op : Operation) : Aside (f.prepare op).run :=
  (f.prepare_within op).mono (fun _ hc d => by cases hc <;> rfl) fun _ hq => by cases hq <;> rfl

theorem submit_aside (f : Flow) (manifest : Manifest) :
    Aside (Transaction.submit f.submission f.message manifest) := by
  rw [Transaction.submit_eq]
  refine ⟨rfl, fun start => ⟨fun _ => rfl, fun _ => ⟨rfl, fun reply => ?_⟩⟩⟩
  refine (Transaction.settle_within f.submission start reply).mono ?_
    fun _ hq => by cases hq <;> rfl
  rintro _ ⟨success, seconds, rfl⟩ d
  rfl

theorem perform_aside (f : Flow) (op : Operation) : Aside (f.perform op) := by
  rw [perform_eq]
  refine Within.bind (f.prepare_aside op) fun r => ?_
  rcases r with fault | ⟨account, manifest⟩
  · trivial
  · exact Within.bind (f.submit_aside manifest) fun _ => trivial

variable {f : Flow} {op : Operation} {d d' : Desk} {talk : Talk}

theorem update_course_ok {stored : Bool} {accounts : List WalletAccount}
    {next : Option AccountRef}
    (h : Course Desk.standing (Connection.update stored accounts).run d talk (.ok next) d') :
    Connection.first? accounts = next := by
  obtain ⟨_, before, _, _, -, -, hrest⟩ := h.run_bind_ok
  dsimp only at hrest
  split at hrest
  · obtain ⟨_, _, _, _, -, -, hpure⟩ := hrest.run_bind_ok
    exact (Except.ok.inj (Course.done_iff.1 hpure).2.1).symm
  · exact (Except.ok.inj (Course.done_iff.1 hrest).2.1).symm

theorem resolve_course_ok {stored : Bool} {account : AccountRef}
    (h : Course Desk.standing (Connection.resolve stored).run d talk (.ok account) d') :
    ∃ accounts later, talk = ⟨.accounts, .ok accounts⟩ :: later ∧
      Connection.IsFirst accounts (some account) := by
  obtain ⟨first, accounts, _, later, rfl, hasked, hrest⟩ := h.run_bind_ok
  obtain ⟨reply, _, rfl, hreply⟩ := Course.ask_iff.1 hasked
  obtain ⟨rfl, rfl, -⟩ := Course.done_iff.1 hreply
  obtain ⟨_, next, _, _, -, hupdate, hresult⟩ := hrest.run_bind_ok
  refine ⟨accounts, later, rfl, Connection.isFirst_iff.2 ?_⟩
  rw [update_course_ok hupdate]
  cases next with
  | none => cases (Course.done_iff.1 hresult).2.1
  | some next =>
    cases (Course.done_iff.1 hresult).2.1
    rfl

theorem prepare_course_ok {account : AccountRef} {manifest : Manifest}
    (h : Course Desk.standing (f.prepare op).run d talk (.ok (account, manifest)) d') :
    (∃ accounts later, talk = ⟨.accounts, .ok accounts⟩ :: later ∧
      Connection.IsFirst accounts (some account)) ∧
    op.build account f.addresses = .ok manifest := by
  obtain ⟨_, account', _, _, rfl, hresolve, hrest⟩ := h.run_bind_ok
  obtain ⟨_, manifest', _, _, rfl, hbuild, hrest'⟩ := hrest.run_bind_ok
  obtain ⟨_, _, _, _, rfl, -, hpure⟩ := hrest'.run_bind_ok
  obtain ⟨-, heq, -⟩ := Course.done_iff.1 hpure
  cases heq
  obtain ⟨accounts, later, rfl, hfirst⟩ := resolve_course_ok hresolve
  refine ⟨⟨accounts, _, rfl, hfirst⟩, ?_⟩
  rw [run_liftM_eq, Course.done_iff] at hbuild
  exact hbuild.2.1.symm

/-- What performing comes to: nothing is read again, and where there is a receipt, some account
    has acted. -/
theorem perform_course {acted : Option AccountRef × Outcome}
    (h : Course Desk.standing (f.perform op) d talk acted d') :
    d'.standing = d.standing ∧ (∀ e ∈ talk, e.question.isReading = false) ∧
      ∀ receipt, acted.2 = .ok receipt →
        ∃ account, acted.1 = some account ∧ f.Acts op talk account := by
  obtain ⟨hstanding, hreading⟩ := (f.perform_aside op).course h
  refine ⟨hstanding, hreading, fun receipt hreceipt => ?_⟩
  rw [perform_eq, Course.bind_iff] at h
  obtain ⟨first, r, _, later, rfl, hprepare, hrest⟩ := h
  rcases r with fault | ⟨account, manifest⟩
  · obtain ⟨-, rfl, -⟩ := Course.done_iff.1 hrest
    cases hreceipt
  · obtain ⟨⟨accounts, asked, rfl, hfirst⟩, hbuilt⟩ := prepare_course_ok hprepare
    obtain ⟨submitted, outcome, _, _, rfl, hsubmit, hdone⟩ := Course.bind_iff.1 hrest
    obtain ⟨-, rfl, -⟩ := Course.done_iff.1 hdone
    rw [Transaction.submit_eq] at hsubmit
    obtain ⟨start, _, rfl, hstarted⟩ := Course.ask_iff.1 hsubmit
    obtain ⟨_, -, hcounted⟩ := Course.act_iff.1 hstarted
    obtain ⟨reply, _, rfl, -⟩ := Course.ask_iff.1 hcounted
    exact ⟨account, rfl, ⟨accounts, _, rfl, hfirst⟩, manifest, reply, hbuilt, by simp⟩

/-! ## Reading again -/

/-- The balances of an account, in an answer of the gateway. -/
def balancesIn (account : AccountRef) (reply : Except Fault (List Entity)) :
    Except Fault Balances :=
  (reply.bind (Ledger.select account.address)).bind Balances.ofEntity

/-- One invocation of a refresher after a success of the account: what it asks, and the balances
    that it brings, if it is the one that brings any. -/
inductive Refreshes (account : AccountRef) :
    Refresher → Talk → Except Fault (Option Balances) → Prop
  | balances (reply : Except Fault (List Entity)) :
      Refreshes account .balances [⟨.entities [account.address], reply⟩]
        ((balancesIn account reply).map some)
  | outside (reply : Except Fault Unit) :
      Refreshes account .outside [⟨.refresh, reply⟩] (reply.map fun _ => none)

/-- Balances that were read are those of the account, in the answer of the gateway. -/
theorem Refreshes.balances_ok {account : AccountRef} {reading : Talk} {read : Option Balances}
    (h : Refreshes account .balances reading (.ok read)) :
    ∃ items entity balances, reading = [⟨.entities [account.address], .ok items⟩] ∧
      Ledger.select account.address items = .ok entity ∧
      Balances.ofEntity entity = .ok balances ∧ read = some balances := by
  generalize hr : Except.ok read = r at h
  cases h with
  | balances reply =>
    rcases reply with fault | items
    · cases hr
    cases hentity : Ledger.select account.address items with
    | error fault => simp [balancesIn, Except.bind, Except.map, hentity] at hr
    | ok entity =>
      cases hbalances : Balances.ofEntity entity with
      | error fault => simp [balancesIn, Except.bind, Except.map, hentity, hbalances] at hr
      | ok balances =>
        simp only [balancesIn, Except.bind, Except.map, hentity, hbalances, Except.ok.injEq] at hr
        exact ⟨items, entity, balances, rfl, hentity, hbalances, hr⟩

/-- The balances on the desk after an invocation of the refresher. -/
def adopt (before : Option Balances) : Except Fault (Option Balances) → Option Balances
  | .ok (some read) => some read
  | _ => before

theorem refreshBalances_eq (account : AccountRef) :
    (refreshBalances (some account)).run = .ask (.entities [account.address]) fun reply =>
      match balancesIn account reply with
      | .ok read => .act (Desk.setBalances read) fun _ => .done (.ok ())
      | .error fault => .done (.error fault) := by
  rw [refreshBalances, run_bind_eq, Ledger.balances, run_bind_eq, Ledger.entity, run_bind_eq]
  simp only [run_liftM_eq]
  show Job.ask _ _ = _
  congr 1
  funext reply
  cases reply with
  | error fault => rfl
  | ok items =>
    show ((proceed _ (Ledger.select account.address items)).bind _ : Work _) = _
    rw [balancesIn, Except.bind]
    cases Ledger.select account.address items with
    | error fault => rfl
    | ok entity =>
      show (proceed _ (Balances.ofEntity entity) : Work _) = _
      rw [Except.bind]
      cases Balances.ofEntity entity <;> rfl

theorem refresh_course_iff {account : AccountRef} {r : Except Fault Unit} :
    Course Desk.standing (f.refresh (some account)).run d talk r d' ↔
      ∃ read, Refreshes account f.refresher talk read ∧ r = read.map (fun _ => ()) ∧
        d'.standing = (d.busy, adopt d.balances read, d.notices) := by
  unfold refresh
  cases f.refresher with
  | balances =>
    show Course _ (refreshBalances (some account)).run _ _ _ _ ↔ _
    rw [refreshBalances_eq, Course.ask_iff]
    constructor
    · rintro ⟨reply, later, rfl, h⟩
      have hrefreshes : Refreshes account .balances _ _ := .balances reply
      cases hread : balancesIn account reply with
      | error fault =>
        rw [hread] at h hrefreshes
        obtain ⟨rfl, rfl, hstanding⟩ := Course.done_iff.1 h
        exact ⟨_, hrefreshes, rfl, hstanding⟩
      | ok read =>
        rw [hread] at h hrefreshes
        obtain ⟨d₁, hd₁, hdone⟩ := Course.act_iff.1 h
        obtain ⟨rfl, rfl, hstanding⟩ := Course.done_iff.1 hdone
        refine ⟨_, hrefreshes, rfl, hstanding.trans ?_⟩
        simp only [Desk.standing, Prod.mk.injEq] at hd₁
        simp [Desk.standing, Desk.setBalances, adopt, hd₁, Except.map]
    · rintro ⟨_, h, rfl, hstanding⟩
      cases h with
      | balances reply =>
        refine ⟨reply, [], rfl, ?_⟩
        cases hread : balancesIn account reply with
        | error fault =>
          rw [hread] at hstanding
          exact Course.done_iff.2 ⟨rfl, rfl, hstanding⟩
        | ok read =>
          rw [hread] at hstanding
          exact Course.act_iff.2 ⟨d, rfl, Course.done_iff.2 ⟨rfl, rfl, hstanding⟩⟩
  | outside =>
    constructor
    · intro h
      obtain ⟨reply, later, rfl, hdone⟩ := Course.ask_iff.1 h
      obtain ⟨hlater, hr, hstanding⟩ := Course.done_iff.1 hdone
      rw [hlater]
      refine ⟨_, .outside reply, ?_, ?_⟩
      · rw [hr]
        cases reply <;> rfl
      · cases reply <;> exact hstanding
    · rintro ⟨_, h, rfl, hstanding⟩
      cases h with
      | outside reply =>
        refine Course.ask_iff.2 ⟨reply, [], rfl, Course.done_iff.2 ⟨rfl, ?_, ?_⟩⟩
        · cases reply <;> rfl
        · cases reply <;> exact hstanding

/-! ## Concluding -/

theorem again_course_iff {delayMs : Nat} {account : AccountRef} {refreshed : Bool} :
    Course Desk.standing (Presentation.again delayMs .succeeded (f.refresh (some account))) d talk
        refreshed d' ↔
      ∃ reading read, talk = ⟨.wait delayMs, ()⟩ :: reading ∧
        Refreshes account f.refresher reading read ∧ refreshed = read.toBool ∧
        d'.standing = (d.busy, adopt d.balances read, d.notices) := by
  show Course _ (.ask (.wait delayMs) fun _ => (f.refresh (some account)).run.bind _) _ _ _ _ ↔ _
  rw [Course.ask_iff]
  constructor
  · rintro ⟨_, _, rfl, h⟩
    obtain ⟨reading, r, d₁, _, rfl, hrefresh, hdone⟩ := Course.bind_iff.1 h
    obtain ⟨read, hread, rfl, hstanding⟩ := refresh_course_iff.1 hrefresh
    refine ⟨reading, read, ?_⟩
    cases read with
    | ok b =>
      obtain ⟨rfl, rfl, hd'⟩ := Course.done_iff.1 hdone
      exact ⟨by rw [List.append_nil], hread, rfl, hd'.trans hstanding⟩
    | error fault =>
      obtain ⟨rfl, rfl, hd'⟩ := Course.done_iff.1 hdone
      exact ⟨by rw [List.append_nil], hread, rfl, hd'.trans hstanding⟩
  · rintro ⟨reading, read, rfl, hread, rfl, hstanding⟩
    refine ⟨(), reading, rfl, Course.bind_iff.2 ?_⟩
    refine ⟨reading, _, d', [], (List.append_nil _).symm,
      refresh_course_iff.2 ⟨read, hread, rfl, hstanding⟩, ?_⟩
    cases read <;> exact .done rfl

/-- What follows the outcome: one notice is given, and after a success the ledger is read again. -/
theorem conclude_course_iff {acted : Option AccountRef × Outcome} {report : Report} :
    Course Desk.standing (f.conclude op acted) d talk report d' ↔
      ∃ refreshed d₁, Course Desk.standing (Presentation.again f.submission.refreshDelayMs
          (Presentation.phaseOf (Notice.ofOutcome acted.2)) (f.refresh acted.1))
          (d.notify (Notice.ofOutcome acted.2)) talk refreshed d₁ ∧
        report = ⟨op.name, acted.2, Notice.ofOutcome acted.2,
          Presentation.phaseOf (Notice.ofOutcome acted.2), refreshed⟩ ∧
        d'.standing = (false, d₁.balances, d₁.notices) := by
  rw [conclude, Presentation.present_eq]
  simp only [Job.bind, Job.bind_assoc, Course.act_iff_of_congr (Desk.setPhase_congr _),
    Course.act_iff_of_congr (Desk.notify_congr _), Course.act_iff_of_congr (Desk.setBusy_congr _),
    Course.bind_iff, Course.done_iff]
  constructor
  · rintro ⟨first, refreshed, d₁, _, rfl, hagain, rfl, rfl, hstanding⟩
    rw [List.append_nil]
    exact ⟨refreshed, d₁, hagain.of_view rfl, rfl, hstanding⟩
  · rintro ⟨refreshed, d₁, hagain, rfl, hstanding⟩
    exact ⟨talk, refreshed, d₁, [], (List.append_nil _).symm, hagain.of_view rfl, rfl, rfl,
      hstanding⟩

theorem conclude_report {acted : Option AccountRef × Outcome} {report : Report}
    (h : Course Desk.standing (f.conclude op acted) d talk report d') :
    report.outcome = acted.2 ∧ report.presented.notice = Notice.ofOutcome acted.2 ∧
      report.presented.phase = Presentation.phaseOf (Notice.ofOutcome acted.2) := by
  obtain ⟨refreshed, d₁, -, rfl, -⟩ := conclude_course_iff.1 h
  exact ⟨rfl, rfl, rfl⟩

theorem conclude_course_of_failure {acted : Option AccountRef × Outcome} {report : Report}
    (hfailure : Outcome.isSuccess acted.2 = false)
    (h : Course Desk.standing (f.conclude op acted) d talk report d') :
    talk = [] ∧ report.presented.refreshed = false ∧
      d'.standing = (false, d.balances, d.notices ++ [Notice.ofOutcome acted.2]) := by
  obtain ⟨refreshed, d₁, hagain, rfl, hafter⟩ := conclude_course_iff.1 h
  have hphase : Presentation.phaseOf (Notice.ofOutcome acted.2) ≠ .succeeded := by
    simp [Presentation.phaseOf_eq_succeeded_iff, Notice.level_ofOutcome, hfailure]
  rw [Presentation.again] at hagain
  · obtain ⟨rfl, rfl, hd₁⟩ := Course.done_iff.1 hagain
    simp only [Desk.standing, Desk.notify, Prod.mk.injEq] at hd₁
    rw [hafter, hd₁.2.1, hd₁.2.2]
    exact ⟨rfl, rfl, rfl⟩
  · exact hphase

theorem conclude_course_iff_of_success {account : AccountRef} {outcome : Outcome} {report : Report}
    (hsuccess : Outcome.isSuccess outcome = true) :
    Course Desk.standing (f.conclude op (some account, outcome)) d talk report d' ↔
      ∃ reading read, talk = ⟨.wait f.submission.refreshDelayMs, ()⟩ :: reading ∧
        Refreshes account f.refresher reading read ∧
        report = ⟨op.name, outcome, Notice.ofOutcome outcome, .succeeded, read.toBool⟩ ∧
        d'.standing =
          (false, adopt d.balances read, d.notices ++ [Notice.ofOutcome outcome]) := by
  have hphase : Presentation.phaseOf (Notice.ofOutcome outcome) = .succeeded :=
    Presentation.phaseOf_eq_succeeded_iff.2 (Notice.level_ofOutcome.2 hsuccess)
  rw [conclude_course_iff, hphase]
  simp only [again_course_iff]
  constructor
  · rintro ⟨_, d₁, ⟨reading, read, rfl, hread, rfl, hd₁⟩, rfl, hafter⟩
    simp only [Desk.standing, Desk.notify, Prod.mk.injEq] at hd₁
    rw [hafter, hd₁.2.1, hd₁.2.2]
    exact ⟨reading, read, rfl, hread, rfl, rfl⟩
  · rintro ⟨reading, read, rfl, hread, rfl, hafter⟩
    exact ⟨_, ⟨d.busy, d.phase, d.account, adopt d.balances read, d.metrics,
      d.notices ++ [Notice.ofOutcome outcome]⟩, ⟨reading, read, rfl, hread, rfl, rfl⟩, rfl, hafter⟩

/-- A run on an idle desk: it is performed, and concluded with a report. -/
theorem run_course_iff {r : Except Fault Report} (hd : d.busy = false) :
    Course Desk.standing (f.run op).run d talk r d' ↔
      ∃ earlier acted d₁ later report, talk = earlier ++ later ∧
        Course Desk.standing (f.perform op) (d.setBusy true) earlier acted d₁ ∧
        Course Desk.standing (f.conclude op acted) d₁ later report d' ∧ r = .ok report := by
  have haccepted : Course Desk.standing (f.run op).run d talk r d' ↔
      Course Desk.standing (f.accepted op) (d.setBusy true) talk r d' := by
    rw [run_eq, Course.act_iff]
    constructor
    · rintro ⟨d₁, hd₁, hrest⟩
      have hbusy : d₁.busy = false := (congrArg Prod.fst hd₁).trans hd
      rw [hbusy] at hrest
      exact hrest.of_view (Desk.setBusy_congr _ _ _ hd₁)
    · intro h
      refine ⟨d, rfl, ?_⟩
      rwa [hd]
  rw [haccepted, accepted, Course.bind_done_iff, runAccepted_eq]
  simp only [Course.act_iff_of_congr (Desk.setPhase_congr _), Course.bind_iff]
  constructor
  · rintro ⟨report, ⟨earlier, acted, d₁, later, rfl, hperform, hconclude⟩, rfl⟩
    exact ⟨earlier, acted, d₁, later, report, rfl, hperform.of_view rfl, hconclude, rfl⟩
  · rintro ⟨earlier, acted, d₁, later, report, rfl, hperform, hconclude, rfl⟩
    exact ⟨report, ⟨earlier, acted, d₁, later, rfl, hperform.of_view rfl, hconclude⟩, rfl⟩

end Flow

end LedgerClient
