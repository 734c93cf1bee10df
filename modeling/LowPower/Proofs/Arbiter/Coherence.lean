import LowPower.Proofs.Arbiter.Deed

namespace LowPower

namespace Sequencer

@[simp] theorem phase_new (core : Nat) : new.phase core = .idle := by
  by_cases h : core < coreCapacity <;> simp [phase, new, h]

end Sequencer

namespace Ladder

theorem length_applyAll (shape : Clock.Shape) (request : Constraint.Request)
    (cs : List Constraint) : (applyAll shape request cs).2.length = cs.length := by
  induction cs with
  | nil => rfl
  | cons c cs ih =>
    rw [applyAll]
    split
    · rfl
    · exact congrArg (· + 1) ih

@[simp] theorem length_apply (target : Target) (request : Constraint.Request) (l : Ladder) :
    (l.apply target request).2.length = l.length := by
  cases target with
  | all => exact length_applyAll l.shape request l.constraints
  | index i =>
    simp only [apply]
    split
    · rfl
    · split
      · rfl
      · simp [length]

theorem length_readAll (query : Constraint.Query) (clear : Bool) (reading : Constraint.Reading)
    (cs : List Constraint) : (readAll query clear reading cs).2.length = cs.length := by
  induction cs generalizing reading with
  | nil => rfl
  | cons c cs ih =>
    rw [readAll]
    split
    · rfl
    · exact congrArg (· + 1) (ih _)

@[simp] theorem length_read (target : Target) (query : Constraint.Query) (clear : Bool)
    (l : Ladder) : (l.read target query clear).2.length = l.length := by
  cases target with
  | all => exact length_readAll query clear (.zero query) l.constraints
  | index i =>
    simp only [read]
    split
    · rfl
    · simp [length]

@[simp] theorem length_check (live : Clock.Table) (l : Ladder) : (l.check live).length = l.length :=
  List.length_map _

end Ladder

namespace Arbiter

@[simp] theorem length_setConstraint (i : Nat) (c : Constraint) (a : Arbiter) :
    (a.setConstraint i c).ladder.length = a.ladder.length := by
  simp [setConstraint, Ladder.length]

@[simp] theorem session?_initial (l : Ladder) (core : Nat) : (initial l).session? core = none := by
  by_cases h : core < coreCapacity <;> simp [session?, initial, h]

theorem session?_released (core : Nat) (session : Session) (outcome : Wake.Outcome) (a : Arbiter)
    (h : core < coreCapacity) (other : Nat) :
    (a.released core session outcome).session? other =
      if core = other then none else a.session? other := by
  change (a.setSession core none).session? other = _
  simp [session?_setSession, h]

theorem session?_entered (core : Nat) (c : Constraint) (session : Session) (a : Arbiter)
    (h : core < coreCapacity) (other : Nat) :
    (a.entered core c session).session? other =
      if core = other then some (c.prepare session) else a.session? other := by
  rw [entered, session?_setSession]
  simp only [h, and_true]
  rfl

/-- A session is stored for a core exactly while the core is asleep. -/
structure Coherent (p : Platform) (a : Arbiter) : Prop where
  phase : ∀ core, a.sequencer.phase core = if (a.session? core).isSome then .asleep else .idle
  confined : ∀ core session, a.session? core = some session → core < p.cores
  core : ∀ core session, a.session? core = some session → session.core = core
  registered : ∀ core session, a.session? core = some session →
    session.constraint < a.ladder.length
  wake : ∀ core session, a.session? core = some session → session.wake = none

namespace Coherent

variable {p : Platform} {device : Device} {a b : Arbiter} {i j : Journal} {core : Nat}
  {session : Session}

theorem initial (l : Ladder) : Coherent p (initial l) := by
  constructor
  · intro core
    rw [session?_initial]
    exact Sequencer.phase_new core
  all_goals
    intro core session h
    rw [session?_initial] at h
    cases h

theorem asleep (h : Coherent p a) (hs : a.session? core = some session) :
    a.sequencer.phase session.core = .asleep := by
  rw [h.core core session hs, h.phase, hs]
  rfl

theorem idle (h : Coherent p a) (hs : a.session? core = none) :
    a.sequencer.phase core = .idle := by
  rw [h.phase, hs]
  rfl

theorem beyond (h : Coherent p a) (hcore : p.cores ≤ core) : a.session? core = none := by
  cases hs : a.session? core with
  | none => rfl
  | some session => exact absurd (h.confined core session hs) (Nat.not_lt.mpr hcore)

theorem exists_constraint (h : Coherent p a) (hs : a.session? core = some session) :
    ∃ c, a.ladder.constraints[session.constraint]? = some c :=
  ⟨_, List.getElem?_eq_getElem (h.registered core session hs)⟩

theorem of_eq (h : Coherent p a) (hsequencer : b.sequencer = a.sequencer)
    (hsessions : b.sessions = a.sessions) (hlength : b.ladder.length = a.ladder.length) :
    Coherent p b := by
  have hs : ∀ core, b.session? core = a.session? core := fun core => by
    rw [session?, hsessions, session?]
  constructor
  · intro core
    rw [hsequencer, hs]
    exact h.phase core
  · intro core session
    rw [hs]
    exact h.confined core session
  · intro core session
    rw [hs]
    exact h.core core session
  · intro core session
    rw [hs, hlength]
    exact h.registered core session
  · intro core session
    rw [hs]
    exact h.wake core session

theorem released (accepted : p.Accepted) (h : Coherent p a) (hs : a.session? core = some session)
    (c c' : Constraint) (outcome : Wake.Outcome) :
    Coherent p
      ((a.released core (c.ending session) outcome).setConstraint session.constraint c') := by
  have hcore : session.core = core := h.core core session hs
  have hlt : core < coreCapacity := Nat.lt_of_lt_of_le (h.confined core session hs) accepted.cores
  have hsession : ∀ other, ((a.released core (c.ending session) outcome).setConstraint
      session.constraint c').session? other = if core = other then none else a.session? other :=
    session?_released core (c.ending session) outcome a hlt
  -- No session appears, so all but the phases follows from the state before.
  have hkept : ∀ {other s}, ((a.released core (c.ending session) outcome).setConstraint
      session.constraint c').session? other = some s → a.session? other = some s := by
    intro other s hs'
    rw [hsession] at hs'
    split at hs'
    · cases hs'
    · exact hs'
  constructor
  · intro other
    rw [hsession]
    change (a.sequencer.woken (c.ending session) outcome).phase other = _
    rw [Sequencer.phase_woken _ (c.ending session) outcome
      (show session.core < coreCapacity from hcore ▸ hlt)]
    change (if session.core = other then _ else _) = _
    rw [hcore]
    split
    · rfl
    · exact h.phase other
  · exact fun other s hs' => h.confined other s (hkept hs')
  · exact fun other s hs' => h.core other s (hkept hs')
  · intro other s hs'
    rw [length_setConstraint]
    exact h.registered other s (hkept hs')
  · exact fun other s hs' => h.wake other s (hkept hs')

theorem entered (accepted : p.Accepted) (h : Coherent p a) (valid : core < p.cores)
    (c : Constraint) (hcore : session.core = core) (hc : session.constraint < a.ladder.length)
    (hwake : session.wake = none) : Coherent p (a.entered core c session) := by
  have hlt : core < coreCapacity := Nat.lt_of_lt_of_le valid accepted.cores
  have hsession := session?_entered core c session a hlt
  have hlength : (a.entered core c session).ladder.length = a.ladder.length :=
    length_setConstraint session.constraint c.countEntry a
  constructor
  · intro other
    rw [hsession]
    change (a.sequencer.armed core).phase other = _
    rw [Sequencer.phase_armed _ hlt]
    split
    · rfl
    · exact h.phase other
  all_goals
    intro other s hs
    rw [hsession] at hs
    split at hs
  · next heq => exact heq ▸ valid
  · exact h.confined other s hs
  · next heq =>
    cases hs
    exact hcore.trans heq
  · exact h.core other s hs
  · cases hs
    exact hlength.symm ▸ hc
  · exact hlength.symm ▸ h.registered other s hs
  · cases hs
    exact hwake
  · exact h.wake other s hs

theorem does {d : Deed} (accepted : p.Accepted) (hd : Does p device d a i b j)
    (h : Coherent p a) : Coherent p b := by
  cases hd with
  | report => exact h
  | look => exact h.of_eq rfl rfl (Ladder.length_check _ _)
  | wake opened => exact h.released accepted opened _ _ _
  | arm valid free registered =>
    exact h.entered accepted valid _ rfl (List.getElem?_eq_some_iff.mp registered).1 rfl
  | vote => exact h.of_eq rfl rfl rfl
  | withdraw => exact h.of_eq rfl rfl rfl
  | update => exact h.of_eq rfl rfl (Ladder.length_apply _ _ _)
  | read => exact h.of_eq rfl rfl (Ladder.length_read _ _ _ _)
  | setFlavor => exact h.of_eq rfl rfl rfl
  | setWatchdog => exact h.of_eq rfl rfl rfl
  | readPll => exact h

end Coherent

variable {p : Platform} {device : Device} {a b : Arbiter} {i j : Journal} {ds : List Deed}

def Deed.session? (core : Nat) (session : Option Session) : Deed → Option Session
  | .wake other _ _ _ => if other = core then none else session
  | .arm other _ opened _ => if other = core then some opened else session
  | _ => session

theorem Does.session? {d : Deed} (hd : Does p device d a i b j) (accepted : p.Accepted)
    (coherent : Coherent p a) (core : Nat) :
    b.session? core = d.session? core (a.session? core) := by
  cases hd with
  | @wake _ _ _ _ other c _ session outcome opened =>
    have hlt := Nat.lt_of_lt_of_le (coherent.confined _ _ opened) accepted.cores
    exact session?_released other (c.ending session) outcome a hlt core
  | arm valid => exact session?_entered _ _ _ a (Nat.lt_of_lt_of_le valid accepted.cores) core
  | _ => rfl

theorem DoesAll.coherent (h : DoesAll p device ds a i b j) (accepted : p.Accepted)
    (coherent : Coherent p a) : Coherent p b := by
  induction h with
  | nil => exact coherent
  | cons head _ ih => exact ih (coherent.does accepted head)

theorem DoesAll.session? (h : DoesAll p device ds a i b j) (accepted : p.Accepted)
    (coherent : Coherent p a) (core : Nat) :
    b.session? core = ds.foldl (fun session d => d.session? core session) (a.session? core) := by
  induction h with
  | nil => rfl
  | cons head _ ih =>
    rw [ih (coherent.does accepted head), head.session? accepted coherent]
    rfl

end Arbiter

end LowPower
