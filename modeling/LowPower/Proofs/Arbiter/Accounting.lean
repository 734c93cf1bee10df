import LowPower.Platform.Mt8192
import LowPower.Proofs.Arbiter.Script
import LowPower.Proofs.Arbiter.Sessions
import LowPower.Proofs.Ladder.Accounts
import Mathlib.Data.BitVec

namespace LowPower

open Bus (Event)

theorem Constraint.residency_account {c c' : Constraint} {kind : Session.Kind}
    {record : Wake.Record} (h : c.account kind record = .ok c') :
    c'.status.residency.toNat = c.status.residency.toNat +
      if kind = .idle ∧ c.status.flags.contains ConstraintFlags.residency then record.timer.toNat
      else 0 := by
  unfold account at h
  split at h
  · next hcounts =>
    unfold addResidency at h
    split at h
    · cases h
    · next hfits =>
      cases h
      have htimer : (record.timer.setWidth 64).toNat = record.timer.toNat :=
        BitVec.toNat_setWidth_of_le (by decide)
      change (c.status.residency + record.timer.setWidth 64).toNat = _
      rw [BitVec.toNat_add_of_not_uaddOverflow hfits, htimer, if_pos hcounts]
  · next hnot =>
    cases h
    rw [if_neg hnot, Nat.add_zero]

def Operation.clears (n : Nat) : Operation → Bool
  | .notify target .clearResidency => target.includes n
  | .control (.update target .clearResidency) => target.includes n
  | .control (.query target .residency true) => target.includes n
  | _ => false

namespace Arbiter

variable {p : Platform} {device : Device} {a b c : Arbiter} {i j k : Journal} {core n : Nat}
  {left : Option Session} {d : Deed} {ds es : List Deed} {op : Operation} {answer : Answer}
  {ops : List (Operation × Answer)}

def counts (n : Nat) (a : Arbiter) (session : Session) : Bool :=
  session.constraint = n && session.kind = .idle &&
    (a.ladder.observe (·.status.flags.contains ConstraintFlags.residency) n).getD false

def lastTimer (a : Arbiter) : Nat := (a.sequencer.lastWake.map (·.record.timer.toNat)).getD 0

def ended? (a : Arbiter) (op : Operation) : Option Session := op.core?.bind a.session?

def credited (n : Nat) (a : Arbiter) (op : Operation) (b : Arbiter) : Nat :=
  if (a.ended? op).any (a.counts n) then b.lastTimer else 0

def removed (n : Nat) (a b : Arbiter) : Nat :=
  a.ladder.residency n - b.ladder.residency n

def sumOver (p : Platform) (device : Device) (f : Arbiter → Operation → Arbiter → Nat) :
    List Operation → Arbiter → Journal → Nat
  | [], _, _ => 0
  | op :: ops, a, j =>
    let after := op.step p device a j
    f a op after.1.2 + sumOver p device f ops after.1.2 after.2

def Deed.Keeps (n : Nat) : Deed → Prop
  | .wake .. => False
  | .update target request => ¬ (request = .clearResidency ∧ target.includes n = true)
  | .read target query clear =>
    ¬ (query = .residency ∧ clear = true ∧ target.includes n = true)
  | _ => True

theorem Does.keeps (hd : Does p device d a i b j) (h : d.Keeps n) :
    b.ladder.residency n = a.ladder.residency n ∧ b.lastTimer = a.lastTimer := by
  cases hd with
  | look => exact ⟨Ladder.residency_check _ _, rfl⟩
  | @arm _ _ _ core index kind extra c _ _ registered =>
    refine ⟨?_, rfl⟩
    refine (Ladder.residency_set registered c.countEntry).trans ?_
    split
    · next heq =>
      rw [← heq, Ladder.residency_of_getElem? registered]
      rfl
    · rfl
  | wake => exact h.elim
  | update => exact ⟨Ladder.residency_apply h, rfl⟩
  | read => exact ⟨Ladder.residency_read h, rfl⟩
  | _ => exact ⟨rfl, rfl⟩

theorem DoesAll.keeps (h : DoesAll p device ds a i b j) (hkeeps : ∀ d ∈ ds, d.Keeps n) :
    b.ladder.residency n = a.ladder.residency n ∧ b.lastTimer = a.lastTimer := by
  induction h with
  | nil => exact ⟨rfl, rfl⟩
  | cons head _ ih =>
    obtain ⟨hresidency, htimer⟩ := ih fun d hd => hkeeps d (List.mem_cons_of_mem _ hd)
    obtain ⟨hresidency', htimer'⟩ := head.keeps (hkeeps _ List.mem_cons_self)
    exact ⟨hresidency.trans hresidency', htimer.trans htimer'⟩

theorem counts_eq_true_iff {session : Session} {c : Constraint}
    (hc : a.ladder.constraints[session.constraint]? = some c) :
    a.counts n session = true ↔ session.constraint = n ∧ session.kind = .idle ∧
      c.status.flags.contains ConstraintFlags.residency = true := by
  rw [counts, Bool.and_eq_true, Bool.and_eq_true, decide_eq_true_eq, decide_eq_true_eq, and_assoc]
  refine and_congr_right fun heq => and_congr_right fun _ => ?_
  rw [Ladder.observe, ← heq, hc]
  rfl

theorem Closing.residency (h : Closing a core left ds) (done : DoesAll p device ds a i b j)
    (n : Nat) : b.ladder.residency n = a.ladder.residency n +
      if (a.session? core).any (a.counts n) then b.lastTimer else 0 := by
  cases h with
  | idle closed =>
    cases done
    rw [closed]
    rfl
  | @wake session _ c outcome opened =>
    cases done with
    | cons head tail =>
      cases tail
      cases head with
      | @wake _ _ _ _ _ _ c' _ _ _ registered _ accounted _ =>
        rw [opened]
        refine (Ladder.residency_set registered c').trans ?_
        change _ = _ + if a.counts n session = true then outcome.record.timer.toNat else 0
        by_cases hn : session.constraint = n
        · rw [if_pos hn, Constraint.residency_account accounted,
            ← Ladder.residency_of_getElem? registered, hn]
          simp only [counts_eq_true_iff registered, hn, true_and]
        · rw [if_neg hn, if_neg fun h => hn ((counts_eq_true_iff registered).mp h).1, Nat.add_zero]

theorem Closing.residency_append (h : Closing a core left ds)
    (done : DoesAll p device (ds ++ es) a i b j) (hkeeps : ∀ d ∈ es, d.Keeps n) :
    b.ladder.residency n = a.ladder.residency n +
      if (a.session? core).any (a.counts n) then b.lastTimer else 0 := by
  obtain ⟨u, k, hclosing, hrest⟩ := done.exists_of_append
  obtain ⟨hresidency, htimer⟩ := hrest.keeps hkeeps
  rw [hresidency, htimer, h.residency hclosing]

theorem Course.exists_closing (h : Course p a op ds answer) (coherent : Coherent p a)
    (done : DoesAll p device ds a i b j) (hcore : op.core? = some core) (n : Nat) :
    ∃ left cs es k, Closing a core left cs ∧ DoesAll p device (cs ++ es) a k b j ∧
      k.events = i.events ∧ (∀ d ∈ es, d.Keeps n) ∧
      (op = .leave core → answer = .reason (((left.bind (·.wake)).map (·.reason)).getD .none)) := by
  have entered : ∀ {e : Entry}, op.enters? = some e → e.core = core := fun he =>
    Option.some.inj ((Operation.core?_of_enters? he).symm.trans hcore)
  have unleft : ∀ {e : Entry}, op.enters? = some e → op ≠ .leave core := by
    rintro e he rfl
    cases he
  cases h with
  | invalidEntry entry invalid =>
    obtain rfl := entered entry
    exact ⟨_, _, _, i, .idle (coherent.beyond invalid), done, rfl, by simp [Deed.Keeps],
      fun hleave => absurd hleave (unleft entry)⟩
  | baseline clocks entry valid closing =>
    obtain rfl := entered entry
    cases done with
    | cons head tail =>
      cases head
      exact ⟨_, _, _, _, closing, tail, rfl, by simp [Deed.Keeps],
        fun hleave => absurd hleave (unleft entry)⟩
  | constraint clocks c required entry valid closing =>
    obtain rfl := entered entry
    cases done with
    | cons head tail =>
      cases head
      exact ⟨_, _, _, _, closing, tail, rfl, by simp [Deed.Keeps],
        fun hleave => absurd hleave (unleft entry)⟩
  | invalidLeave invalid =>
    cases hcore
    exact ⟨_, _, _, i, .idle (coherent.beyond invalid), done, rfl, by simp [Deed.Keeps],
      fun _ => rfl⟩
  | leave valid closing =>
    cases hcore
    rw [← List.append_nil ds] at done
    exact ⟨_, _, _, i, closing, done, rfl, List.forall_mem_nil _, fun _ => rfl⟩
  | _ => cases hcore

/-- What is not removed on request is kept, and the time of each wake is added once. -/
theorem Course.residency (h : Course p a op ds answer) (coherent : Coherent p a)
    (done : DoesAll p device ds a i b j) (kept : op.clears n = false) :
    b.ladder.residency n = a.ladder.residency n + credited n a op b := by
  cases hcore : op.core? with
  | some core =>
    obtain ⟨left, cs, es, k, closing, done, -, hkeeps, -⟩ := h.exists_closing coherent done hcore n
    rw [credited, ended?, hcore]
    exact closing.residency_append done hkeeps
  | none =>
    rw [credited, ended?, hcore]
    -- No session ends, so the account could only change by being cleared.
    refine (done.keeps ?_).1
    cases h with
    | vote | withdraw => simp [Deed.Keeps]
    | notify target request refusal =>
      refine List.forall_mem_cons.mpr ⟨trivial, List.forall_mem_singleton.mpr ?_⟩
      rintro ⟨rfl, included⟩
      exact Bool.false_ne_true (kept.symm.trans included)
    | control command reply =>
      refine List.forall_mem_cons.mpr ⟨trivial, List.forall_mem_cons.mpr ⟨?_,
        List.forall_mem_singleton.mpr trivial⟩⟩
      cases command with
      | update target request =>
        rintro ⟨rfl, included⟩
        exact Bool.false_ne_true (kept.symm.trans included)
      | query target asked clear =>
        rintro ⟨rfl, rfl, included⟩
        exact Bool.false_ne_true (kept.symm.trans included)
      | _ => exact trivial
    | invalidLeave | leave => cases hcore
    | invalidEntry entry => cases (Operation.core?_of_enters? entry).symm.trans hcore
    | baseline _ entry => cases (Operation.core?_of_enters? entry).symm.trans hcore
    | constraint _ _ _ entry => cases (Operation.core?_of_enters? entry).symm.trans hcore

theorem step_query {target : Target} {query : Constraint.Query} {clear : Bool}
    (h : (Operation.control (.query target query clear)).step p device a i =
      ((.ok answer, b), j)) :
    b.ladder = (a.ladder.read target query clear).2 ∧
      ((∃ reading, (a.ladder.read target query clear).1 = .ok reading ∧
          answer = .reply ⟨queryStatus target, reading.value⟩) ∨
        ∃ refusal, (a.ladder.read target query clear).1 = .error (.refused refusal) ∧
          answer = .reply .bad) := by
  obtain ⟨k, hstep⟩ := exists_step_query p target query clear a device i
  rw [hstep] at h
  cases hread : (a.ladder.read target query clear).1 with
  | ok reading =>
    rw [hread] at h
    cases h
    exact ⟨rfl, .inl ⟨reading, rfl, rfl⟩⟩
  | error failure =>
    rw [hread] at h
    cases failure with
    | refused refusal =>
      cases h
      exact ⟨rfl, .inr ⟨refusal, rfl, rfl⟩⟩
    | broken fault => cases h

theorem step_query_residency {target : Target}
    (h : (Operation.control (.query target .residency true)).step p device a i =
      ((.ok answer, b), j)) :
    (∀ n, target.includes n = true → b.ladder.residency n = 0) ∧
      ∃ reply, answer = .reply reply ∧
        reply.value.toNat = ∑ n ∈ Finset.range a.ladder.length, removed n a b := by
  obtain ⟨hladder, ⟨reading, hread, rfl⟩ | ⟨refusal, hread, rfl⟩⟩ := step_query h
  · obtain ⟨cleared, hvalue⟩ := Ladder.read_residency hread
    rw [← hladder] at cleared
    refine ⟨cleared, _, rfl, hvalue.trans (Finset.sum_congr rfl fun n _ => ?_)⟩
    by_cases hn : target.includes n = true
    · rw [if_pos hn, removed, cleared n hn, Nat.sub_zero]
    · rw [if_neg hn, removed, hladder, Ladder.residency_read fun h => hn h.2.2, Nat.sub_self]
  · obtain ⟨hsame, hnone⟩ := Ladder.read_refused hread
    have hladder : b.ladder = a.ladder := hladder.trans hsame
    refine ⟨fun n hn => (congrArg (Ladder.residency n) hladder).trans (hnone n hn), _, rfl, ?_⟩
    refine (Finset.sum_eq_zero fun n _ => ?_).symm
    rw [removed, hladder, Nat.sub_self]

theorem DoesAll.cleared {target : Target} (h : DoesAll p device (.report :: .update target
    .clearResidency :: ds) a i b j) (hkeeps : ∀ d ∈ ds, d.Keeps n)
    (hn : target.includes n = true) : b.ladder.residency n = 0 := by
  cases h with
  | cons _ tail =>
    cases tail with
    | cons update rest =>
      cases update
      rw [(rest.keeps hkeeps).1]
      exact Ladder.residency_clear _ hn

theorem Course.deeds_notify {target : Target} {request : Constraint.Request}
    (h : Course p a (.notify target request) ds answer) :
    ds = [.report, .update target request] := by
  cases h with
  | notify => rfl
  | invalidEntry entry => cases entry
  | baseline _ entry => cases entry
  | constraint _ _ _ entry => cases entry

theorem Course.deeds_control {command : Command} (h : Course p a (.control command) ds answer) :
    ds = [.report, command.deed, .report] := by
  cases h with
  | control => rfl
  | invalidEntry entry => cases entry
  | baseline _ entry => cases entry
  | constraint _ _ _ entry => cases entry

theorem step_cleared (h : op.step p device a i = ((.ok answer, b), j))
    (hclears : op.clears n = true) : b.ladder.residency n = 0 := by
  cases op with
  | notify target request =>
    cases request with
    | clearResidency =>
      obtain ⟨_, course, done⟩ := course_notify h
      obtain rfl := course.deeds_notify
      exact done.cleared (List.forall_mem_nil _) hclears
    | _ => cases hclears
  | control command =>
    cases command with
    | update target request =>
      cases request with
      | clearResidency =>
        obtain ⟨_, course, done⟩ := course_control h
        obtain rfl := course.deeds_control
        exact done.cleared (List.forall_mem_singleton.mpr trivial) hclears
      | _ => cases hclears
    | query target asked clear =>
      cases asked with
      | residency =>
        cases clear with
        | true => exact (step_query_residency h).1 n hclears
        | false => cases hclears
      | _ => cases hclears
    | _ => cases hclears
  | _ => cases hclears

def Deed.entered (n : Nat) : Deed → Word
  | .arm _ _ session _ => if session.constraint = n then 1#32 else 0#32
  | _ => 0#32

theorem Does.entries (hd : Does p device d a i b j) (n : Nat) :
    b.ladder.entries n = a.ladder.entries n + d.entered n := by
  cases hd with
  | look => simp [Deed.entered, refreshed]
  | @wake _ _ _ _ core c c' session outcome _ registered _ accounted _ =>
    obtain ⟨residency, rfl⟩ := Constraint.account_eq_ok accounted
    refine (Ladder.entries_set registered _).trans ?_
    split
    · next heq =>
      rw [← heq, Ladder.entries_of_getElem? registered]
      exact (BitVec.add_zero _).symm
    · exact (BitVec.add_zero _).symm
  | @arm _ _ _ core index kind extra c _ _ registered =>
    refine (Ladder.entries_set registered c.countEntry).trans ?_
    change _ = _ + if index = n then 1#32 else 0#32
    split
    · next heq =>
      rw [← heq, Ladder.entries_of_getElem? registered]
      rfl
    · exact (BitVec.add_zero _).symm
  | update => simp [Deed.entered]
  | read => simp [Deed.entered]
  | _ => exact (BitVec.add_zero _).symm

theorem DoesAll.entries (h : DoesAll p device ds a i b j) (n : Nat) :
    b.ladder.entries n = a.ladder.entries n + (ds.map (Deed.entered n)).sum := by
  induction h with
  | nil => exact (BitVec.add_zero _).symm
  | cons head _ ih => rw [ih, head.entries, List.map_cons, List.sum_cons, BitVec.add_assoc]

theorem Closing.entered (h : Closing a core left ds) (n : Nat) :
    (ds.map (Deed.entered n)).sum = 0#32 := by
  cases h with
  | idle => rfl
  | wake => rfl

theorem Course.entered (h : Course p a op ds answer) (n : Nat) :
    (ds.map (Deed.entered n)).sum = if answer = .depth (.constraint n) then 1#32 else 0#32 := by
  cases h with
  | baseline _ _ _ closing => simp [closing.entered, Deed.entered]
  | @constraint _ _ _ _ session _ _ _ _ _ closing =>
    simp [closing.entered, Deed.entered]
  | leave _ closing => simp [closing.entered]
  | control command => cases command <;> rfl
  | _ => rfl

/-- A history goes on with a wake: the programming is undone, and then the record is read. -/
def GoesOnWith (map : Register.Map) (r : Wake.Record) (before after : Bus.History) : Prop :=
  ∃ options, ∃ undone ∈ Sequencer.undoing map options, ∃ rest : List Event,
    after = (undone ++ (Sequencer.captured map r ++ rest)).reverse ++ before

theorem Sequencer.exists_captured {map : Register.Map} {options : SessionOptions}
    {outcome : Wake.Outcome} {es : List Event} (h : es ∈ Sequencer.waking map options outcome) :
    ∃ r, r.timer = outcome.record.timer ∧ ∃ undone ∈ Sequencer.undoing map options,
      ∃ rest, es = undone ++ (Sequencer.captured map r ++ rest) := by
  obtain ⟨undone, hundone, _, ⟨_, ⟨r, seen, code, hrecord, captures⟩, concluded, -, rfl⟩, rfl⟩ := h
  obtain ⟨_, rfl, marked, -, rfl⟩ := captures
  refine ⟨r, ?_, undone, hundone, marked ++ concluded, by simp⟩
  rw [hrecord]
  cases seen with
  | false => rfl
  | true => rfl

theorem Closing.wakes {session : Session} (h : Closing a core left ds)
    (done : DoesAll p device (ds ++ es) a i b j) (hkeeps : ∀ d ∈ es, d.Keeps 0)
    (opened : a.session? core = some session) :
    ∃ r, GoesOnWith p.map r i.events j.events ∧ b.lastTimer = r.timer.toNat := by
  obtain ⟨u, k, hclosing, hrest⟩ := done.exists_of_append
  cases h with
  | idle closed =>
    rw [closed] at opened
    cases opened
  | @wake _ _ c outcome =>
    cases hclosing with
    | cons head tail =>
      cases tail
      have htimer : u.lastTimer = outcome.record.timer.toNat := by
        cases head
        rfl
      obtain ⟨es, ⟨fs, hfs, resumed, -, rfl⟩, hhead⟩ := head.events
      obtain ⟨r, hr, undone, hundone, rest, rfl⟩ := Sequencer.exists_captured hfs
      obtain ⟨gs, -, htail⟩ := hrest.events
      refine ⟨r, ⟨_, undone, hundone, rest ++ resumed ++ gs, ?_⟩, ?_⟩
      · rw [htail, hhead]
        simp
      · rw [(hrest.keeps hkeeps).2, htimer, hr]

theorem Course.wakes {session : Session} (h : Course p a op ds answer) (coherent : Coherent p a)
    (done : DoesAll p device ds a i b j) (ended : a.ended? op = some session) :
    ∃ r, GoesOnWith p.map r i.events j.events ∧ b.lastTimer = r.timer.toNat := by
  obtain ⟨core, hcore, opened⟩ := Option.bind_eq_some_iff.mp ended
  obtain ⟨left, cs, es, k, closing, done, hevents, hkeeps, -⟩ :=
    h.exists_closing coherent done hcore 0
  rw [← hevents]
  exact closing.wakes done hkeeps opened

theorem credited_of_clears (h : op.clears n = true) (a b : Arbiter) : credited n a op b = 0 := by
  cases op with
  | notify | control => rfl
  | _ => cases h

structure Accounted (p : Platform) (a : Arbiter) (i : Journal) (op : Operation) (answer : Answer)
    (b : Arbiter) (j : Journal) : Prop where
  balanced : ∀ n, b.ladder.residency n + removed n a b = a.ladder.residency n + credited n a op b
  removes : ∀ n, removed n a b ≠ 0 → op.clears n = true
  clears : ∀ n, op.clears n = true → b.ladder.residency n = 0
  reads : ∀ target, op = .control (.query target .residency true) → ∃ reply,
    answer = .reply reply ∧
      reply.value.toNat = ∑ n ∈ Finset.range a.ladder.length, removed n a b
  wakes : ∀ session, a.ended? op = some session →
    ∃ r, GoesOnWith p.map r i.events j.events ∧ b.lastTimer = r.timer.toNat
  entries : ∀ n, b.ladder.entries n =
    a.ladder.entries n + if answer = .depth (.constraint n) then 1#32 else 0#32

theorem step_accounted (accepted : p.Accepted) (coherent : Coherent p a)
    (h : op.step p device a i = ((.ok answer, b), j)) : Accounted p a i op answer b j := by
  obtain ⟨ds, course, done⟩ := step_course accepted coherent h
  have kept : ∀ {n}, op.clears n = false → removed n a b = 0 := by
    intro n hn
    rw [removed, course.residency coherent done hn, Nat.sub_eq_zero_of_le (Nat.le_add_right _ _)]
  constructor
  · intro n
    cases hn : op.clears n with
    | true =>
      rw [removed, step_cleared h hn, credited_of_clears hn]
      omega
    | false => rw [kept hn, course.residency coherent done hn, Nat.add_zero]
  · intro n hremoved
    cases hn : op.clears n with
    | true => rfl
    | false => exact absurd (kept hn) hremoved
  · exact fun n hn => step_cleared h hn
  · rintro target rfl
    exact (step_query_residency h).2
  · exact fun session ended => course.wakes coherent done ended
  · intro n
    rw [done.entries, course.entered]

theorem Steps.accounts (accepted : p.Accepted) (coherent : Coherent p a)
    (h : Steps p device a i ops b j) (n : Nat) :
    b.ladder.residency n + sumOver p device (fun a _ b => removed n a b) (ops.map (·.1)) a i =
        a.ladder.residency n + sumOver p device (credited n) (ops.map (·.1)) a i ∧
      b.ladder.entries n = a.ladder.entries n +
        BitVec.ofNat 32 (ops.countP fun o => o.2 = .depth (.constraint n)) := by
  induction h with
  | refl => exact ⟨rfl, (BitVec.add_zero _).symm⟩
  | step head _ ih =>
    obtain ⟨hresidency, hentries⟩ := ih (coherent.step accepted head)
    have accounted := step_accounted accepted coherent head
    have hbalanced := accounted.balanced n
    constructor
    · simp only [List.map_cons, sumOver, head]
      omega
    · rw [hentries, accounted.entries, List.countP_cons, BitVec.add_assoc, Nat.add_comm,
        BitVec.ofNat_add]
      simp only [decide_eq_true_eq]
      split
      · rfl
      · rfl

/-- Over any run, nothing that was spent in a constraint is lost or counted twice, and every entry
is counted once. Each operation removes just what it is asked to remove, a query which clears
gives what it removes, and what is added was read at a wake. -/
theorem accounts_balance (reached : Reachable p device a i) :
    (∀ ops b j, Steps p device a i ops b j → ∀ n,
      b.ladder.residency n + sumOver p device (fun a _ b => removed n a b) (ops.map (·.1)) a i =
          a.ladder.residency n + sumOver p device (credited n) (ops.map (·.1)) a i ∧
        b.ladder.entries n = a.ladder.entries n +
          BitVec.ofNat 32 (ops.countP fun o => o.2 = .depth (.constraint n))) ∧
      ∀ op answer b j, Operation.step p device op a i = ((.ok answer, b), j) →
        Accounted p a i op answer b j :=
  ⟨fun _ _ _ steps n => steps.accounts reached.accepted reached.coherent n,
    fun _ _ _ _ h => step_accounted reached.accepted reached.coherent h⟩

def ticking (ticks : Word) : Device :=
  .memory fun r => if r = Mt8192.map.timerBackup then ticks else 0#32

theorem accounts_balance_idling : ∃ a i ops b j, Reachable Mt8192.platform (ticking 7#32) a i ∧
    Steps Mt8192.platform (ticking 7#32) a i ops b j ∧ b.ladder.residency 0 = 7 ∧
    sumOver Mt8192.platform (ticking 7#32) (fun a _ b => removed 0 a b) (ops.map (·.1)) a i =
      14 := by
  have idles : (replayAll Mt8192.platform (ticking 7#32)
      [.notify .all (.setFlags (.firmware ∪ .residency))]).any (fun r =>
        (replay Mt8192.platform (ticking 7#32)
          [.idleEnter 0 0, .idleEnter 0 0, .leave 0, .leave 0,
            .control (.query .all .residency true), .idleEnter 0 0, .leave 0]
          r.2.1 r.2.2).any fun s =>
            r.2.1.ladder.residency 0 = 0 && s.2.1.ladder.residency 0 = 7 &&
            sumOver Mt8192.platform (ticking 7#32) (credited 0) (s.1.map (·.1)) r.2.1 r.2.2 =
              21) = true := by
    decide +kernel
  obtain ⟨⟨_, a, i⟩, hrun, h⟩ := (Option.any_eq_true _ _).mp idles
  obtain ⟨⟨ops, b, j⟩, hsteps, h⟩ := (Option.any_eq_true _ _).mp h
  simp only [Bool.and_eq_true, decide_eq_true_eq] at h
  obtain ⟨⟨hstart, hend⟩, hcredited⟩ := h
  have reached := reachable_of_replayAll hrun
  have steps := steps_of_replay hsteps
  have balance := ((accounts_balance reached).1 ops b j steps 0).1
  refine ⟨a, i, ops, b, j, reached, steps, hend, ?_⟩
  omega

end Arbiter

end LowPower
