import LowPower.Proofs.Word
import LowPower.Wake.Reason

namespace LowPower.Wake

open Word (Within)

structure Record.Within (a b : Record) : Prop where
  event : Word.Within a.event b.event
  misc : Word.Within a.misc b.misc
  debugFlag : Word.Within a.debugFlag b.debugFlag

namespace Reason

variable {a b r : Record} {reason : Reason} {x y mask : Word}

theorem sees_iff : sees x mask = true ↔ ∃ i, x.getLsbD i = true ∧ mask.getLsbD i = true := by
  rw [sees, bne_iff_ne, Word.and_ne_zero_iff]

theorem sees_of_within (h : Within x y) (hx : sees x mask = true) : sees y mask = true := by
  obtain ⟨i, hi, hmask⟩ := sees_iff.mp hx
  exact sees_iff.mpr ⟨i, h i hi, hmask⟩

theorem sees_or (x mask mask' : Word) :
    sees x (mask ||| mask') = (sees x mask || sees x mask') := by
  rw [Bool.eq_iff_iff, Bool.or_eq_true, sees_iff, sees_iff, sees_iff, ← exists_or]
  refine exists_congr fun i => ?_
  rw [BitVec.getLsbD_or, Bool.or_eq_true, and_or_left]

theorem or_sees (x y mask : Word) : sees (x ||| y) mask = (sees x mask || sees y mask) := by
  rw [sees, BitVec.and_comm, ← sees, sees_or, sees, sees, sees, sees, BitVec.and_comm mask,
    BitVec.and_comm mask]

/-- Whether a record shows a reason, be it decoded or outranked. Every record might be unknown. -/
def shown (r : Record) : Reason → Bool
  | .none => false
  | .abort => sees r.debugFlag abortFlags
  | .peripheral => sees r.event (~~~(timerEvent ||| miscEvent))
  | .ackCheck => sees r.event miscEvent && sees r.misc ackCheckSources
  | .powerMeter => sees r.event miscEvent && sees r.misc powerMeterSources
  | .twam => sees r.event miscEvent && sees r.misc twamSource
  | .dvfs => sees r.event miscEvent && sees r.misc dvfsSource
  | .timer => sees r.event timerEvent
  | .unknown => true

def byPrecedence : List Reason :=
  [.abort, .peripheral, .ackCheck, .powerMeter, .twam, .dvfs, .timer, .unknown]

theorem pairwise_byPrecedence : byPrecedence.Pairwise (·.code < ·.code) := by decide

theorem mem_byPrecedence (h : reason.shown r = true) : reason ∈ byPrecedence := by
  cases reason with
  | none => cases h
  | _ => decide

theorem find?_cons_shown {next : Reason} {rest : List Reason}
    (h : rest.find? (shown r) = some next) :
    (reason :: rest).find? (shown r) = some (if reason.shown r then reason else next) := by
  rw [List.find?_cons]
  cases reason.shown r with
  | true => rfl
  | false => exact h

theorem find?_byPrecedence (r : Record) : byPrecedence.find? (shown r) = some (decode r) := by
  have unknown : [Reason.unknown].find? (shown r) = some .unknown := rfl
  exact find?_cons_shown (find?_cons_shown (find?_cons_shown (find?_cons_shown
    (find?_cons_shown (find?_cons_shown (find?_cons_shown unknown))))))

theorem shown_decode (r : Record) : (decode r).shown r = true :=
  List.find?_some (find?_byPrecedence r)

theorem decode_ne_none (r : Record) : decode r ≠ .none := by
  intro h
  have shows := shown_decode r
  rw [h] at shows
  cases shows

theorem code_decode_le (reason : Reason) (h : reason.shown r = true) :
    (decode r).code ≤ reason.code := by
  obtain ⟨-, earlier, later, split, unseen⟩ :=
    List.find?_eq_some_iff_append.mp (find?_byPrecedence r)
  have sorted := pairwise_byPrecedence
  have member := mem_byPrecedence h
  rw [split] at sorted member
  rcases List.mem_append.mp member with before | after
  · exact absurd h (by simpa using unseen reason before)
  · rcases List.mem_cons.mp after with rfl | after
    · exact Nat.le_refl _
    · have sorted := (List.pairwise_append.mp sorted).2.1
      exact Nat.le_of_lt ((List.pairwise_cons.mp sorted).1 reason after)

theorem decode_eq_iff : decode r = reason ↔
    reason.shown r = true ∧ ∀ other : Reason, other.code < reason.code → other.shown r = false := by
  constructor
  · rintro rfl
    refine ⟨shown_decode r, fun other h => ?_⟩
    exact Bool.eq_false_iff.mpr fun shows => Nat.not_le.mpr h (code_decode_le other shows)
  · rintro ⟨shows, outranked⟩
    refine code_injective (Nat.le_antisymm (code_decode_le reason shows) ?_)
    refine Nat.not_lt.mp fun h => ?_
    cases (shown_decode r).symm.trans (outranked _ h)

theorem shown_of_within (h : a.Within b) (shows : reason.shown a = true) :
    reason.shown b = true := by
  have misc {mask : Word} (shows : (sees a.event miscEvent && sees a.misc mask) = true) :
      (sees b.event miscEvent && sees b.misc mask) = true := by
    obtain ⟨event, source⟩ := Bool.and_eq_true_iff.mp shows
    exact Bool.and_eq_true_iff.mpr ⟨sees_of_within h.event event, sees_of_within h.misc source⟩
  cases reason with
  | none => exact shows
  | abort => exact sees_of_within h.debugFlag shows
  | peripheral | timer => exact sees_of_within h.event shows
  | ackCheck | powerMeter | twam | dvfs => exact misc shows
  | unknown => rfl

theorem code_decode_mono (h : a.Within b) : (decode b).code ≤ (decode a).code :=
  code_decode_le _ (shown_of_within h (shown_decode a))

theorem decode_eq_abort_iff : decode r = .abort ↔ sees r.debugFlag abortFlags = true := by
  rw [decode_eq_iff]
  refine and_iff_left fun other h => ?_
  cases other with
  | none => rfl
  | _ => exact absurd h (by decide)

def miscellaneous : List Reason := [.ackCheck, .powerMeter, .twam, .dvfs]

def miscSources : Word := ackCheckSources ||| powerMeterSources ||| twamSource ||| dvfsSource

theorem exists_miscellaneous_iff : (∃ source ∈ miscellaneous, source.shown r = true) ↔
    sees r.event miscEvent = true ∧ sees r.misc miscSources = true := by
  simp only [miscellaneous, miscSources, sees_or, List.mem_cons, List.not_mem_nil, or_false,
    exists_eq_or_imp, exists_eq_left, shown, Bool.and_eq_true, Bool.or_eq_true, or_assoc,
    ← and_or_left]

theorem decode_eq_timer_iff : decode r = .timer ↔ sees r.event timerEvent = true ∧
    sees r.debugFlag abortFlags = false ∧ sees r.event (~~~(timerEvent ||| miscEvent)) = false ∧
    ¬ (sees r.event miscEvent = true ∧ sees r.misc miscSources = true) := by
  rw [decode_eq_iff, ← exists_miscellaneous_iff]
  constructor
  · rintro ⟨timer, outranked⟩
    refine ⟨timer, outranked .abort (by decide), outranked .peripheral (by decide), ?_⟩
    rintro ⟨source, member, shows⟩
    have above : ∀ source ∈ miscellaneous, source.code < Reason.timer.code := by decide
    cases shows.symm.trans (outranked source (above source member))
  · rintro ⟨timer, abort, peripheral, misc⟩
    refine ⟨timer, fun other h => ?_⟩
    cases other with
    | none => rfl
    | abort => exact abort
    | peripheral => exact peripheral
    | ackCheck | powerMeter | twam | dvfs =>
      exact Bool.eq_false_iff.mpr fun shows => misc ⟨_, by decide, shows⟩
    | timer | unknown => exact absurd h (by decide)

theorem decode_markS1 (r : Record) :
    decode { r with debugFlag := r.debugFlag ||| s1Flags } = decode r := by
  have unseen : sees (r.debugFlag ||| s1Flags) abortFlags = sees r.debugFlag abortFlags := by
    rw [or_sees, show sees s1Flags abortFlags = false by decide, Bool.or_false]
  simp only [decode, unseen]

/-- What shows more is decoded to a reason of at least the same precedence, and everything is
decoded to some reason. An abort outranks all else, and a peripheral all but an abort. The timer is
decoded only where nothing else is shown which is known, and it makes no difference whether memory
was seen to enter S1. -/
theorem decoding_keeps_precedence :
    (∀ a b : Record, a.Within b → (decode b).code ≤ (decode a).code) ∧
    (∀ r, decode r ≠ .none) ∧
    (∀ r, decode r = .abort ↔ sees r.debugFlag abortFlags = true) ∧
    (∀ r, sees r.event (~~~(timerEvent ||| miscEvent)) = true →
      (decode r).code ≤ Reason.peripheral.code) ∧
    (∀ r, decode r = .timer ↔ sees r.event timerEvent = true ∧
      sees r.debugFlag abortFlags = false ∧ sees r.event (~~~(timerEvent ||| miscEvent)) = false ∧
      ¬ (sees r.event miscEvent = true ∧ sees r.misc miscSources = true)) ∧
    ∀ r, decode { r with debugFlag := r.debugFlag ||| s1Flags } = decode r :=
  ⟨fun _ _ => code_decode_mono, decode_ne_none, fun _ => decode_eq_abort_iff,
    fun _ shows => code_decode_le .peripheral shows, fun _ => decode_eq_timer_iff,
    decode_markS1⟩

theorem decoding_keeps_precedence_interrupted :
    let early : Record := { Record.zero with event := 0x3#32, misc := 0x20000#32 }
    let late : Record := { early with event := 0x43#32 }
    decode early = .twam ∧ decode late = .peripheral ∧
      (decode late).code ≤ (decode early).code := by
  refine ⟨by decide, by decide, decoding_keeps_precedence.1 _ _ ⟨?_, ?_, ?_⟩⟩
  all_goals decide

end Reason

end LowPower.Wake
