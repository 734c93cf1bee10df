import LowPower.Proofs.Sequencer.Manner
import LowPower.Proofs.Sequencer.Script

namespace LowPower

open Bus (Action Event Follows Script)

namespace Bus.Script

variable {φ : List Event → Event → Prop} {s t : Script}

def allowed (φ : List Event → Event → Prop) : Script :=
  {es | ∀ before e after, es = before ++ e :: after → φ before e}

theorem one_le_allowed : 1 ≤ allowed φ := by
  rintro _ rfl before e after h
  exact absurd h (by simp)

theorem append_singleton_mem_allowed {es : List Event} {e : Event} :
    es ++ [e] ∈ allowed φ ↔ es ∈ allowed φ ∧ φ es e := by
  constructor
  · intro h
    exact ⟨fun before f after hes => h before f (after ++ [e]) (by simp [hes]), h es e [] rfl⟩
  · rintro ⟨hes, he⟩ before f after h
    rcases List.eq_nil_or_concat after with rfl | ⟨after, g, rfl⟩
    · obtain ⟨rfl, hlast⟩ := List.append_inj' h rfl
      cases hlast
      exact he
    · rw [List.concat_eq_append, ← List.cons_append, ← List.append_assoc] at h
      exact hes before f after (List.append_inj' h rfl).1

variable (mono : ∀ earlier before e, φ before e → φ (earlier ++ before) e)
include mono

theorem append_mem_allowed {es fs : List Event} (hes : es ∈ allowed φ) (hfs : fs ∈ allowed φ) :
    es ++ fs ∈ allowed φ := by
  induction fs using List.reverseRecOn with
  | nil =>
    rw [List.append_nil]
    exact hes
  | append_singleton fs f ih =>
    obtain ⟨hfs, hf⟩ := append_singleton_mem_allowed.mp hfs
    rw [← List.append_assoc]
    exact append_singleton_mem_allowed.mpr ⟨ih hfs, mono es fs f hf⟩

theorem mul_le_allowed (hs : s ≤ allowed φ) (ht : t ≤ allowed φ) : s * t ≤ allowed φ := by
  intro _ hmul
  obtain ⟨es, hes, fs, hfs, rfl⟩ := Language.mem_mul.mp hmul
  exact append_mem_allowed mono (hs hes) (ht hfs)

end Bus.Script

theorem Bus.Follows.habit {s : Script} (one : 1 ≤ s) (mul : s * s ≤ s) :
    Habit Action (Follows · fun _ => s) where
  pure a := (Follows.done a).mono fun _ => one
  bind hx hf := (hx.seq hf).mono fun _ => mul

open Bus.Script (allowed append_mem_allowed append_singleton_mem_allowed mul_le_allowed
  one_le_allowed store)

namespace Watchdog

def switched : List Word := [timerEnable, watchdogEnable, watchdogWakes]

/-- What may be written to the control register where `read` was read: the key and, below it, what
was read, with one of three bits changed at most. Bit 9, which makes the watchdog wake, is never
turned on. -/
structure Keyed (read written : Word) : Prop where
  key : written.extractLsb' 16 16 = 0x0B16#16
  changes : ∃ bit ∈ switched, ∀ i < 16,
    bit.getLsbD i = false → written.getLsbD i = read.getLsbD i
  wakes : written.getLsbD 9 = true → read.getLsbD 9 = true

theorem lower_of_switched {bits : Word} (h : bits ∈ switched) {i : Nat} (hi : i < 16) :
    bits.getLsbD (16 + i) = false := by
  simp only [switched, List.mem_cons, List.not_mem_nil, or_false] at h
  rcases h with rfl | rfl | rfl
  all_goals
    revert i
    decide

theorem extractLsb'_controlWord {bits : Word} (h : bits ∈ switched) (on : Bool) (read : Word) :
    (controlWord bits on read).extractLsb' 16 16 = 0x0B16#16 := by
  have hkey : ∀ i < 16, key.getLsbD (16 + i) = (0x0B16#16).getLsbD i := by decide
  have hlower : ∀ i < 16, (0x0000FFFF#32).getLsbD (16 + i) = false := by decide
  ext i hi
  rw [BitVec.getElem_extractLsb', ← BitVec.getLsbD_eq_getElem, controlWord, BitVec.getLsbD_or,
    hkey i hi]
  cases on with
  | true =>
    simp only [if_true, BitVec.getLsbD_or, BitVec.getLsbD_and, hlower i hi, lower_of_switched h hi,
      Bool.and_false, Bool.or_false]
  | false =>
    simp only [Bool.false_eq_true, if_false, BitVec.getLsbD_and, hlower i hi, Bool.and_false,
      Bool.false_and, Bool.or_false]

theorem keyed_controlWord {bits : Word} {on : Bool} (read : Word) (known : bits ∈ switched)
    (wakes : on = true → bits.getLsbD 9 = false) : Keyed read (controlWord bits on read) where
  key := extractLsb'_controlWord known on read
  changes := by
    refine ⟨bits, known, fun i hi unset => ?_⟩
    rw [getLsbD_controlWord bits on read hi, unset]
    cases on with
    | true => exact Bool.or_false _
    | false => exact Bool.and_true _
  wakes := by
    rw [getLsbD_controlWord bits on read (by decide)]
    cases on with
    | true =>
      rw [wakes rfl]
      simp
    | false => simp +contextual

def limiting (map : Register.Map) (control timer limit : Word) : List Event :=
  [.write map.pcmControl control, .read map.timerValue timer] ++
    (if timerMax < timer then [.write map.timerValue timerMax] else []) ++
    [.write map.watchdogValue limit]

/-- The watchdog was limited at last: it does not wake, and its limit is a margin after the timer. -/
structure Limited (map : Register.Map) (before : List Event) (control timer limit : Word) : Prop where
  last : limiting map control timer limit <:+ before
  wakes : control.getLsbD 9 = false
  limit : limit.toNat = min timer.toNat timerMax.toNat + margin.toNat

/-- What is written to the control register follows a read of it. Where bit 4 is turned on, which
enables the watchdog, the watchdog was limited before. -/
def Disciplined (map : Register.Map) (before : List Event) (e : Event) : Prop :=
  ∀ written, e = .write map.pcmControl written → ∃ earlier read,
    before = earlier ++ [.read map.pcmControl read] ∧ Keyed read written ∧
    (read.getLsbD 4 = false → written.getLsbD 4 = true →
      ∃ control timer limit, Limited map earlier control timer limit)

def disciplined (map : Register.Map) : Script := allowed (Disciplined map)

variable {map : Register.Map}

theorem Disciplined.mono (earlier before : List Event) (e : Event)
    (h : Disciplined map before e) : Disciplined map (earlier ++ before) e := by
  intro written hwritten
  obtain ⟨before', read, rfl, keyed, ready⟩ := h written hwritten
  refine ⟨earlier ++ before', read, (List.append_assoc ..).symm, keyed, fun hread hset => ?_⟩
  obtain ⟨control, timer, limit, last, wakes, hlimit⟩ := ready hread hset
  exact ⟨control, timer, limit, last.trans (List.suffix_append _ _), wakes, hlimit⟩

theorem append_mem_disciplined {es fs : List Event} (hes : es ∈ disciplined map)
    (hfs : fs ∈ disciplined map) : es ++ fs ∈ disciplined map :=
  append_mem_allowed Disciplined.mono hes hfs

theorem disciplined_of_ne {before : List Event} {e : Event}
    (h : ∀ written, e ≠ .write map.pcmControl written) : Disciplined map before e :=
  fun written hwritten => absurd hwritten (h written)

theorem single_le_disciplined {e : Event} (h : ∀ written, e ≠ .write map.pcmControl written) :
    ({[e]} : Script) ≤ disciplined map := by
  rintro _ rfl
  exact append_singleton_mem_allowed.mpr ⟨one_le_allowed rfl, disciplined_of_ne h⟩

theorem store_le_disciplined (distinct : map.Distinct) {r : Register.Name} (h : r ≠ .pcmControl)
    (x : Word) : store (map.at r) x ≤ disciplined map := by
  refine single_le_disciplined fun written hwritten => ?_
  rw [Event.write.injEq] at hwritten
  exact h (distinct.at_injective hwritten.1)

theorem switching_mem_disciplined {bits : Word} {on : Bool} {earlier : List Event} {read : Word}
    (hearlier : earlier ∈ disciplined map) (keyed : Keyed read (controlWord bits on read))
    (ready : read.getLsbD 4 = false → (controlWord bits on read).getLsbD 4 = true →
      ∃ control timer limit, Limited map earlier control timer limit) :
    earlier ++ [.read map.pcmControl read, .write map.pcmControl (controlWord bits on read)] ∈
      disciplined map := by
  rw [List.append_cons]
  have looked : earlier ++ [.read map.pcmControl read] ∈ disciplined map :=
    append_singleton_mem_allowed.mpr ⟨hearlier, disciplined_of_ne nofun⟩
  refine append_singleton_mem_allowed.mpr ⟨looked, fun written hwritten => ?_⟩
  cases hwritten
  exact ⟨earlier, read, rfl, keyed, ready⟩

theorem switching_le_disciplined {bits : Word} {on : Bool} (known : bits ∈ switched)
    (tame : on = true → bits = timerEnable) : switching map bits on ≤ disciplined map := by
  have keyed (read : Word) : Keyed read (controlWord bits on read) :=
    keyed_controlWord read known fun h => tame h ▸ rfl
  rintro _ ⟨read, rfl⟩
  refine switching_mem_disciplined (one_le_allowed rfl) (keyed read) fun hread hset => ?_
  rw [getLsbD_controlWord bits on read (by decide), hread] at hset
  cases on with
  | true =>
    rw [tame rfl] at hset
    exact absurd hset (by decide)
  | false => exact absurd hset (by simp)

theorem exists_limiting {es : List Event} (h : es ∈ arming map) : ∃ first timer read : Word,
    es = [.read map.pcmControl first] ++
      limiting map (controlWord watchdogWakes false first) timer (clamp timer + margin) ++
      [.read map.pcmControl read,
        .write map.pcmControl (controlWord watchdogEnable true read)] := by
  obtain ⟨_, ⟨first, rfl⟩, _, ⟨timer, _, rfl, _, ⟨shortened, hshortened, hrest⟩, rfl⟩, rfl⟩ := h
  obtain ⟨_, ⟨_, rfl, _, ⟨read, rfl⟩, rfl⟩, rfl⟩ := hrest
  refine ⟨first, timer, read, ?_⟩
  by_cases long : timerMax < timer
  · rw [Script.given_pos long] at hshortened
    cases hshortened
    simp [limiting, long]
  · rw [Script.given_neg long] at hshortened
    cases hshortened
    simp [limiting, long]

theorem limiting_mem_disciplined (distinct : map.Distinct) (first timer limit : Word) :
    [.read map.pcmControl first] ++
      limiting map (controlWord watchdogWakes false first) timer limit ∈ disciplined map := by
  have silenced : switching map watchdogWakes false ≤ disciplined map :=
    switching_le_disciplined (by simp [switched]) nofun
  have looked : [.read map.timerValue timer] ∈ disciplined map :=
    single_le_disciplined (e := .read map.timerValue timer) nofun rfl
  have shortened : (if timerMax < timer then [.write map.timerValue timerMax] else []) ∈
      disciplined map := by
    split
    · exact store_le_disciplined distinct (r := .timerValue) nofun _ rfl
    · exact one_le_allowed rfl
  have stored : [.write map.watchdogValue limit] ∈ disciplined map :=
    store_le_disciplined distinct (r := .watchdogValue) nofun _ rfl
  have together := append_mem_disciplined (append_mem_disciplined
    (append_mem_disciplined (silenced ⟨first, rfl⟩) looked) shortened) stored
  simpa [limiting] using together

theorem arming_le_disciplined (distinct : map.Distinct) : arming map ≤ disciplined map := by
  intro es hes
  obtain ⟨first, timer, read, rfl⟩ := exists_limiting hes
  have enabled : Keyed read (controlWord watchdogEnable true read) :=
    keyed_controlWord read (by simp [switched]) fun _ => rfl
  refine switching_mem_disciplined (limiting_mem_disciplined distinct _ _ _) enabled fun _ _ =>
    ⟨_, timer, _, List.suffix_append _ _, ?_, ?_⟩
  · rw [getLsbD_controlWord _ _ _ (by decide)]
    exact Bool.and_false _
  · rw [BitVec.toNat_add, Nat.mod_eq_of_lt (clamp_add_margin_lt timer), toNat_clamp]

end Watchdog

theorem Manner.disciplined {map : Register.Map} (distinct : map.Distinct) :
    Manner map (Follows · fun _ => Watchdog.disciplined map) where
  toHabit := Follows.habit one_le_allowed (mul_le_allowed Watchdog.Disciplined.mono le_rfl le_rfl)
  note n := (Follows.note n).mono fun _ => one_le_allowed
  call {e} h := (Follows.emit e).mono fun _ => Watchdog.single_le_disciplined (by
    rintro written rfl
    exact h)
  read a := (Follows.load a).mono fun _ => by
    rintro _ ⟨x, rfl⟩
    exact Watchdog.single_le_disciplined (e := .read a x) nofun rfl
  write r h x := (Follows.write _ x).mono fun _ => Watchdog.store_le_disciplined distinct h x
  timer on := (Watchdog.follows_putControl map _ on).mono fun _ =>
    Watchdog.switching_le_disciplined (by simp [Watchdog.switched]) fun _ => rfl
  watchdog on := (Watchdog.follows_put map on).mono fun _ => by
    cases on with
    | true => exact Watchdog.arming_le_disciplined distinct
    | false => exact Watchdog.switching_le_disciplined (by simp [Watchdog.switched]) nofun

end LowPower
