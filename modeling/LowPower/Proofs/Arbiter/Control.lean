import LowPower.Arbiter.Control
import LowPower.Proofs.Arbiter.Deed

namespace LowPower

open Bus (Silent attempt attempt_bind attempt_get_bind attempt_liftBus_bind attempt_set_bind
  attempt_modify_bind attempt_map bind_apply map_apply)

def Command.deed : Command → Arbiter.Deed
  | .setFlavor flavor => .setFlavor flavor
  | .setWatchdog enable ticks => .setWatchdog enable ticks
  | .queryPll => .readPll
  | .update target request => .update target request
  | .query target asked clear => .read target asked clear

theorem Constraint.expected_notices (request : Request) (c : Constraint) :
    ∀ n ∈ c.notices request, n.Expected := by
  unfold notices
  intro n hn
  split at hn
  · split at hn
    · rw [List.mem_singleton.mp hn]
      exact trivial
    · cases hn
  · cases hn

namespace Arbiter

variable {p : Platform} {device : Device} {a b : Arbiter} {i j k : Journal}

def settled {α : Type} : Except Failure α → Except Fault (Except Refusal α)
  | .ok x => .ok (.ok x)
  | .error (.refused refusal) => .ok (.error refusal)
  | .error (.broken fault) => .error fault

theorem attempt_settle {α : Type} (result : Except Failure α) (a : Arbiter) :
    attempt (settle result) a = pure (settled result, a) := by
  rcases result with ⟨refusal | fault⟩ | x
  · rfl
  · rfl
  · rfl

theorem notify_apply (target : Target) (request : Constraint.Request) (a : Arbiter)
    (device : Device) (j : Journal) :
    ∃ notices, (∀ n ∈ notices, n.Expected) ∧
      attempt (notify target request) a device j =
        ((settled (a.ladder.apply target request).1,
          { a with ladder := (a.ladder.apply target request).2 }),
          { j with notices := notices ++ j.notices }) := by
  have silent : Silent Notice.Expected
      (Bus.noteAll ((a.ladder.targeted target).flatMap (·.notices request))) := by
    refine .noteAll fun n hn => ?_
    obtain ⟨c, -, hn⟩ := List.mem_flatMap.mp hn
    exact c.expected_notices request n hn
  obtain ⟨notices, hnotices, expected⟩ := silent.exists_notices device j
  refine ⟨notices, expected, ?_⟩
  rw [← hnotices]
  exact congrFun (congrFun (attempt_settle (a.ladder.apply target request).1
    { a with ladder := (a.ladder.apply target request).2 }) device) _

theorem notify_does (target : Target) (request : Constraint.Request) (a : Arbiter)
    (device : Device) (j : Journal) :
    ∃ result k, attempt (notify target request) a device j =
      ((result, { a with ladder := (a.ladder.apply target request).2 }), k) ∧
      Does p device .report a j a k := by
  obtain ⟨notices, expected, hnotify⟩ := notify_apply target request a device j
  exact ⟨_, _, hnotify, .report expected⟩

theorem read_apply (target : Target) (query : Constraint.Query) (clear : Bool) (a : Arbiter)
    (device : Device) (j : Journal) :
    attempt (read target query clear) a device j =
      ((settled (a.ladder.read target query clear).1,
        { a with ladder := (a.ladder.read target query clear).2 }), j) :=
  congrFun (congrFun (attempt_settle (a.ladder.read target query clear).1
    { a with ladder := (a.ladder.read target query clear).2 }) device) j

def updateReply : Except Refusal Unit → Command.Reply
  | .ok () => .ok
  | .error _ => .bad

def queryReply (target : Target) : Except Refusal Constraint.Reading → Command.Reply
  | .ok reading => ⟨queryStatus target, reading.value⟩
  | .error _ => .bad

theorem attempt_control_update (target : Target) (request : Constraint.Request) (a : Arbiter)
    (device : Device) (j : Journal) :
    ∃ k : Journal, attempt (control p (.update target request)) a device j =
      (((settled (a.ladder.apply target request).1).map updateReply,
        { a with ladder := (a.ladder.apply target request).2 }), k) ∧ k.events = j.events := by
  obtain ⟨notices, -, hnotify⟩ := notify_apply target request a device
    { j with notices := .commanded (.update target request) :: j.notices }
  change ∃ k : Journal, attempt (notify target request >>= _) a device _ = _ ∧ _
  rw [attempt_bind, bind_apply, hnotify]
  rcases settled (a.ladder.apply target request).1 with fault | ⟨refusal | ⟨⟩⟩
  · exact ⟨_, rfl, rfl⟩
  · exact ⟨_, rfl, rfl⟩
  · exact ⟨_, rfl, rfl⟩

theorem attempt_control_query (target : Target) (query : Constraint.Query) (clear : Bool)
    (a : Arbiter) (device : Device) (j : Journal) :
    ∃ k : Journal, attempt (control p (.query target query clear)) a device j =
      (((settled (a.ladder.read target query clear).1).map (queryReply target),
        { a with ladder := (a.ladder.read target query clear).2 }), k) ∧ k.events = j.events := by
  change ∃ k : Journal, attempt (read target query clear >>= _) a device _ = _ ∧ _
  rw [attempt_bind, bind_apply, read_apply]
  rcases settled (a.ladder.read target query clear).1 with fault | ⟨refusal | reading⟩
  · exact ⟨_, rfl, rfl⟩
  · exact ⟨_, rfl, rfl⟩
  · exact ⟨_, rfl, rfl⟩

theorem exists_step_query (p : Platform) (target : Target) (query : Constraint.Query)
    (clear : Bool) (a : Arbiter) (device : Device) (j : Journal) :
    ∃ k, (Operation.control (.query target query clear)).step p device a j =
      ((((settled (a.ladder.read target query clear).1).map (queryReply target)).map .reply,
        { a with ladder := (a.ladder.read target query clear).2 }), k) := by
  obtain ⟨k, hcontrol, -⟩ := attempt_control_query (p := p) target query clear a device j
  refine ⟨k, ?_⟩
  change attempt (Answer.reply <$> control p (.query target query clear)) a device j = _
  rw [attempt_map, map_apply, hcontrol]

theorem control_does {command : Command} {reply : Command.Reply}
    (h : attempt (control p command) a device j = ((.ok reply, b), k)) :
    DoesAll p device [.report, command.deed, .report] a j b k := by
  unfold control at h
  rw [attempt_liftBus_bind, bind_apply] at h
  have commanded : Does p device .report a j a _ := .note (.commanded command) trivial a j
  cases command with
  | setFlavor flavor =>
    cases h
    exact .cons commanded (.cons (.setFlavor flavor) (Does.nothing _ _).all)
  | setWatchdog enable ticks =>
    cases h
    exact .cons commanded (.cons (.setWatchdog enable ticks rfl rfl) (Does.nothing _ _).all)
  | queryPll =>
    cases h
    exact .cons commanded (.cons (.readPll rfl) (Does.nothing _ _).all)
  | update target request =>
    change attempt (notify target request >>= _) a device _ = _ at h
    obtain ⟨result, i, hnotify, hreport⟩ := notify_does (p := p) target request a device
      (Bus.note (.commanded (.update target request)) device j).2
    rw [attempt_bind, bind_apply, hnotify] at h
    have reported := commanded.report_trans hreport
    rcases result with fault | ⟨refusal | ⟨⟩⟩
    · cases h
    · cases h
      exact .cons reported (.cons (.update target request)
        (Does.note (.rejected request target refusal) trivial _ i).all)
    · cases h
      exact .cons reported (.cons (.update target request) (Does.nothing _ _).all)
  | query target query clear =>
    change attempt (read target query clear >>= _) a device _ = _ at h
    rw [attempt_bind, bind_apply, read_apply] at h
    generalize settled (a.ladder.read target query clear).1 = result at h
    rcases result with fault | ⟨refusal | reading⟩
    · cases h
    · cases h
      exact .cons commanded (.cons (.read target query clear)
        (Does.note (.queryFailed target refusal) trivial _ _).all)
    · cases h
      exact .cons commanded (.cons (.read target query clear) (Does.nothing _ _).all)

end Arbiter

end LowPower
