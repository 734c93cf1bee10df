import LowPower.Proofs.Arbiter.Passage

/-!
The parts of which operations are made. Each part is one change of the state together with one
action on the bus, and invariants are shown part by part.
-/

namespace LowPower

def Notice.Expected : Notice → Prop
  | .rearming .. | .noSuchCore .. | .nothingToUndo .. | .enterUnknown .. | .leaveUnknown .. => False
  | _ => True

namespace Arbiter

inductive Deed
  | report
  | look (clocks : Clock.Table)
  | wake (core : Nat) (c : Constraint) (session : Session) (outcome : Wake.Outcome)
  | arm (core : Nat) (c : Constraint) (session : Session) (required : ResourceSet)
  | vote (resource : Resource) (requested : Bool)
  | withdraw (resource : Resource)
  | update (target : Target) (request : Constraint.Request)
  | read (target : Target) (query : Constraint.Query) (clear : Bool)
  | setFlavor (flavor : SuspendFlavor)
  | setWatchdog (enable : Bool) (ticks : Word)
  | readPll

inductive Does (p : Platform) (device : Device) :
    Deed → Arbiter → Journal → Arbiter → Journal → Prop
  | report {a : Arbiter} {j : Journal} {notices : List Notice}
      (expected : ∀ n ∈ notices, n.Expected) :
      Does p device .report a j a { j with notices := notices ++ j.notices }
  | look {a : Arbiter} {j k : Journal} {clocks : Clock.Table}
      (looked : p.layout.observation p.map device j = (clocks, k)) :
      Does p device (.look clocks) a j (a.refreshed clocks) k
  | wake {a : Arbiter} {i j k : Journal} {core : Nat} {c c' : Constraint} {session : Session}
      {outcome : Wake.Outcome} (opened : a.session? core = some session)
      (registered : a.ladder.constraints[session.constraint]? = some c)
      (ended : Sequencer.wakeUp p.map (c.ending session) device j = (outcome, i))
      (accounted : c.account session.kind outcome.record = .ok c')
      (resumed : c'.resume p.map session.kind outcome device i = ((), k)) :
      Does p device (.wake core c session outcome) a j
        ((a.released core (c.ending session) outcome).setConstraint session.constraint c') k
  | arm {a : Arbiter} {j k : Journal} {core index : Nat} {kind : Session.Kind}
      {extra : SessionOptions} {c : Constraint} (valid : core < p.cores)
      (free : a.session? core = none) (registered : a.ladder.constraints[index]? = some c)
      (accepted : Ladder.accepts a.votes.required c)
      (launched : c.launch p.map a.votes.required (a.newSession p core index kind extra) device j =
        ((), k)) :
      Does p device
        (.arm core c (c.prepare (a.newSession p core index kind extra)) a.votes.required) a j
        (a.entered core c (a.newSession p core index kind extra)) k
  | vote {a : Arbiter} {j : Journal} (resource : Resource) (requested : Bool) :
      Does p device (.vote resource requested) a j
        { a with votes := a.votes.cast resource requested } j
  | withdraw {a : Arbiter} {j : Journal} (resource : Resource) :
      Does p device (.withdraw resource) a j { a with votes := a.votes.withdraw resource } j
  | update {a : Arbiter} {j : Journal} (target : Target) (request : Constraint.Request) :
      Does p device (.update target request) a j
        { a with ladder := (a.ladder.apply target request).2 } j
  | read {a : Arbiter} {j : Journal} (target : Target) (query : Constraint.Query) (clear : Bool) :
      Does p device (.read target query clear) a j
        { a with ladder := (a.ladder.read target query clear).2 } j
  | setFlavor {a : Arbiter} {j : Journal} (flavor : SuspendFlavor) :
      Does p device (.setFlavor flavor) a j { a with flavor } j
  | setWatchdog {a : Arbiter} {i j k : Journal} (enable : Bool) (ticks : Word)
      (timed : Bus.write p.map.timerValue ticks device j = ((), i))
      (put : Watchdog.put p.map enable device i = ((), k)) :
      Does p device (.setWatchdog enable ticks) a j
        { a with watchdog := if enable then some ticks else none } k
  | readPll {a : Arbiter} {j k : Journal} {register : Word}
      (looked : Bus.read p.map.pllMode device j = (register, k)) : Does p device .readPll a j a k

inductive DoesAll (p : Platform) (device : Device) :
    List Deed → Arbiter → Journal → Arbiter → Journal → Prop
  | nil (a : Arbiter) (j : Journal) : DoesAll p device [] a j a j
  | cons {a b c : Arbiter} {i j k : Journal} {d : Deed} {ds : List Deed}
      (head : Does p device d a i b j) (tail : DoesAll p device ds b j c k) :
      DoesAll p device (d :: ds) a i c k

variable {p : Platform} {device : Device} {a b c : Arbiter} {i j k : Journal} {d : Deed}
  {ds es : List Deed}

theorem Does.note (n : Notice) (expected : n.Expected) (a : Arbiter) (j : Journal) :
    Does p device .report a j a { j with notices := n :: j.notices } :=
  .report (List.forall_mem_singleton.mpr expected)

theorem Does.nothing (a : Arbiter) (j : Journal) : Does p device .report a j a j :=
  .report (List.forall_mem_nil _)

theorem Does.report_trans (h : Does p device .report a i b j)
    (h' : Does p device .report b j c k) : Does p device .report a i c k := by
  cases h with
  | @report _ _ new expected =>
    cases h' with
    | @report _ _ new' expected' =>
      rw [← List.append_assoc]
      exact .report fun n hn => (List.mem_append.mp hn).elim (expected' n) (expected n)

theorem Does.all (h : Does p device d a i b j) : DoesAll p device [d] a i b j :=
  .cons h (.nil b j)

theorem DoesAll.append (h : DoesAll p device ds a i b j) (h' : DoesAll p device es b j c k) :
    DoesAll p device (ds ++ es) a i c k := by
  induction h with
  | nil => exact h'
  | cons head _ ih => exact .cons head (ih h')

theorem DoesAll.exists_of_append (h : DoesAll p device (ds ++ es) a i c k) :
    ∃ b j, DoesAll p device ds a i b j ∧ DoesAll p device es b j c k := by
  induction ds generalizing a i with
  | nil => exact ⟨a, i, .nil a i, h⟩
  | cons d ds ih =>
    cases h with
    | cons head tail =>
      obtain ⟨b, j, hds, hes⟩ := ih tail
      exact ⟨b, j, .cons head hds, hes⟩

theorem DoesAll.invariant {I : Arbiter → Journal → Prop}
    (keeps : ∀ {d a i b j}, Does p device d a i b j → I a i → I b j)
    (h : DoesAll p device ds a i b j) (start : I a i) : I b j := by
  induction h with
  | nil => exact start
  | cons head _ ih => exact ih (keeps head start)

end Arbiter

end LowPower
