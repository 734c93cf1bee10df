import LowPower.Proofs.Bus.Script
import LowPower.Proofs.Sequencer.Report

namespace LowPower

open Bus (Emits Event Follows Script)
open Bus.Script (given load modify only reading store within given_le_only load_le_only
  modify_le_within mul_le_only reading_le_only store_le_within)

namespace Watchdog

theorem clamp_add_margin_lt (timer : Word) : (clamp timer).toNat + margin.toNat < 2 ^ 32 := by
  rw [toNat_clamp]
  have limited : min timer.toNat timerMax.toNat + margin.toNat ≤ timerMax.toNat + margin.toNat :=
    Nat.add_le_add_right (Nat.min_le_right _ _) _
  exact Nat.lt_of_le_of_lt limited (by decide)

variable (map : Register.Map)

def controlWord (bits : Word) (on : Bool) (read : Word) : Word :=
  key ||| if on then (read &&& 0x0000FFFF#32) ||| bits else (read &&& 0x0000FFFF#32) &&& ~~~bits

theorem getLsbD_controlWord (bits : Word) (on : Bool) (read : Word) {i : Nat} (h : i < 16) :
    (controlWord bits on read).getLsbD i =
      if on then read.getLsbD i || bits.getLsbD i else read.getLsbD i && !bits.getLsbD i := by
  have hkey : ∀ i < 16, key.getLsbD i = false := by decide
  have hlower : ∀ i < 16, (0x0000FFFF#32).getLsbD i = true := by decide
  have hi : i < 32 := Nat.lt_trans h (by decide)
  rw [controlWord, BitVec.getLsbD_or, hkey i h, Bool.false_or]
  cases on with
  | true =>
    simp only [if_true, BitVec.getLsbD_or, BitVec.getLsbD_and, hlower i h, Bool.and_true]
  | false =>
    simp only [Bool.false_eq_true, if_false, BitVec.getLsbD_and, BitVec.getLsbD_not, hlower i h,
      hi, decide_true, Bool.true_and, Bool.and_true]

theorem putControl_eq (bits : Word) (on : Bool) : putControl map bits on = (do
    Bus.write map.pcmControl (controlWord bits on (← Bus.read map.pcmControl))) := rfl

def switching (bits : Word) (on : Bool) : Script := modify map.pcmControl (controlWord bits on)

def arming : Script :=
  switching map watchdogWakes false * reading map.timerValue fun timer =>
    given (timerMax < timer) (store map.timerValue timerMax) *
      (store map.watchdogValue (clamp timer + margin) * switching map watchdogEnable true)

theorem follows_putControl (bits : Word) (on : Bool) :
    Follows (putControl map bits on) fun _ => switching map bits on := by
  rw [putControl_eq, switching]
  exact .modify map.pcmControl (controlWord bits on)

theorem follows_arm : Follows (arm map) fun _ => arming map := by
  rw [arm_eq, arming]
  exact .seq (follows_putControl map _ _) fun _ => .reading fun _ =>
    .seq (.when fun _ => .write _ _) fun _ => .seq (.write _ _) fun _ =>
    follows_putControl map _ _

theorem follows_put (on : Bool) : Follows (put map on) fun _ =>
    if on then arming map else switching map watchdogEnable false := by
  cases on with
  | true => exact follows_arm map
  | false => exact follows_putControl map _ _

variable {map} {rs : List Register.Name}

theorem switching_le_within (h : .pcmControl ∈ rs) (bits : Word) (on : Bool) :
    switching map bits on ≤ within map rs :=
  modify_le_within .pcmControl h _

theorem arming_le_within (hc : .pcmControl ∈ rs) (ht : .timerValue ∈ rs)
    (hw : .watchdogValue ∈ rs) : arming map ≤ within map rs := by
  refine mul_le_only (switching_le_within hc _ _) ?_
  refine reading_le_only (fun _ => trivial) fun timer => ?_
  refine mul_le_only (given_le_only fun _ => store_le_within .timerValue ht _) ?_
  exact mul_le_only (store_le_within .watchdogValue hw _) (switching_le_within hc _ _)

end Watchdog

namespace Sequencer

variable (map : Register.Map)

def programmingWake (session : Session) : Script :=
  store map.coreScratch (BitVec.twoPow 32 session.core) *
    (store map.coreMailbox (BitVec.ofNat 32 session.core) *
    (store map.wakeMask (~~~session.power.wakeSources) *
    given (session.power.timerTicks ≠ 0#32) (store map.timerValue session.power.timerTicks *
      Watchdog.switching map Watchdog.timerEnable true)))

def programmingFlags (session : Session) (votes : ResourceSet) : Script :=
  store map.swFlag0 session.power.pcm.flags.bits *
    (store map.swFlag1 session.power.pcm.flags1.bits *
    store map.sourceRequest (request session votes).bits)

def programmingOptions (options : SessionOptions) : Script :=
  given (options.contains SessionOptions.clearClockRecord) (store map.clockRecord 1#32) *
    (given (options.contains SessionOptions.watchdog) (Watchdog.arming map) *
    (given (options.contains SessionOptions.crystalLowPower) (store map.crystal 1#32) *
    given (options.contains SessionOptions.monitorS1) (modify map.s1Control (· ||| 1#32))))

def kicking (kind : Session.Kind) : Script :=
  store map.kick 1#32 * (store map.kick 0#32 *
    given (kind = .suspend) (Watchdog.switching map Watchdog.timerEnable false))

def programming (session : Session) (votes : ResourceSet) : Script :=
  programmingWake map session * (programmingFlags map session votes *
    (programmingOptions map session.options * (kicking map session.kind * only Event.IsRead)))

theorem follows_programWake (session : Session) :
    Follows (programWake map session) fun _ => programmingWake map session := by
  rw [programWake_eq]
  exact .seq (.write _ _) fun _ => .seq (.write _ _) fun _ => .seq (.write _ _) fun _ =>
    .when fun _ => .seq (.write _ _) fun _ => Watchdog.follows_putControl map _ _

theorem follows_programFlags (session : Session) (votes : ResourceSet) :
    Follows (programFlags map session votes) fun _ => programmingFlags map session votes :=
  .seq (.write _ _) fun _ => .seq (.write _ _) fun _ => .write _ _

theorem follows_programOptions (options : SessionOptions) :
    Follows (programOptions map options) fun _ => programmingOptions map options := by
  rw [programOptions_eq]
  exact .seq (.when fun _ => .write _ _) fun _ =>
    .seq (.when fun _ => Watchdog.follows_arm map) fun _ =>
    .seq (.when fun _ => .write _ _) fun _ => .when fun _ => .modify _ (· ||| 1#32)

theorem follows_kick (kind : Session.Kind) :
    Follows (kick map kind) fun _ => kicking map kind := by
  rw [kick_eq]
  exact .seq (.write _ _) fun _ => .seq (.write _ _) fun _ =>
    .when fun _ => Watchdog.follows_putControl map _ _

theorem emits_reportArmed (session : Session) :
    Emits Event.IsRead (reportArmed map session) :=
  .bind (Emits.read fun _ => trivial) fun _ => .bind (Emits.note _) fun _ =>
    .bind (Emits.read fun _ => trivial) fun _ => .bind (Emits.read fun _ => trivial) fun _ =>
    .bind (Emits.read fun _ => trivial) fun _ => Emits.note _

theorem follows_program (session : Session) (votes : ResourceSet) :
    Follows (program map session votes) fun _ => programming map session votes :=
  .seq (follows_programWake map session) fun _ => .seq (follows_programFlags map session votes)
    fun _ => .seq (follows_programOptions map session.options) fun _ =>
    .seq (follows_kick map session.kind) fun _ => .of_emits (emits_reportArmed map session)

def undoing (options : SessionOptions) : Script :=
  given (options.contains SessionOptions.watchdog)
      (Watchdog.switching map Watchdog.watchdogEnable false) *
    (given (options.contains SessionOptions.crystalLowPower) (store map.crystal 0#32) *
    (given (options.contains SessionOptions.monitorS1)
      (modify map.s1Control (· &&& ~~~1#32) * load map.s1Status) *
    store map.externalClear 1#32))

def captured (r : Wake.Record) : List Event :=
  [.read map.wakeEvent r.event, .read map.wakeEventExt r.eventExt,
    .read map.wakeStatus r.rawStatus, .read map.wakeMisc r.misc, .read map.timerBackup r.timer,
    .read map.pcmReg13 r.pcmReg13, .read map.requestStatus r.requestStatus,
    .read map.debugFlag r.debugFlag, .read map.debugFlag1 r.debugFlag1,
    .read map.swFlag0 r.swFlag0, .read map.swFlag1 r.swFlag1]

def marked (seen : Bool) (r : Wake.Record) : Wake.Record :=
  if seen then { r with debugFlag := r.debugFlag ||| Wake.Reason.s1Flags } else r

def capturing (record : Wake.Record) : Script :=
  {es | ∃ r seen code, record = { marked seen r with reason := code } ∧
    es ∈ {captured map r} * given (seen = true) (store map.debugFlag (marked seen r).debugFlag)}

def waking (options : SessionOptions) (outcome : Wake.Outcome) : Script :=
  undoing map options * (capturing map outcome.record *
    {[.read map.interruptStatus outcome.interruptStatus,
      .read map.sourceRequest outcome.sourceRequest]})

def concluded (seen : Bool) (r : Wake.Record) : Wake.Record :=
  { marked seen r with reason := BitVec.ofNat 32 (Wake.Reason.decode (marked seen r)).code }

def asking (seen : Bool) : Script :=
  {es | ∃ status : Word, seen = status.getLsbD 0 ∧ es = [.read map.s1Status status]}

def unasked (seen : Bool) : Script := {es | seen = false ∧ es = []}

def stopping (options : SessionOptions) (seen : Bool) : Script :=
  if options.contains SessionOptions.monitorS1 then
    modify map.s1Control (· &&& ~~~1#32) * asking map seen
  else unasked seen

def disarming (options : SessionOptions) (seen : Bool) : Script :=
  given (options.contains SessionOptions.watchdog)
      (Watchdog.switching map Watchdog.watchdogEnable false) *
    (given (options.contains SessionOptions.crystalLowPower) (store map.crystal 0#32) *
    (stopping map options seen * store map.externalClear 1#32))

def sighting (session : Session) (record : Wake.Record) : Script :=
  {es | ∃ seen r, record = concluded seen r ∧
    r.constraint = BitVec.ofNat 32 session.constraint ∧ r.core = BitVec.ofNat 32 session.core ∧
    es ∈ disarming map session.options seen *
      ({captured map r} * given (seen = true) (store map.debugFlag (marked seen r).debugFlag))}

theorem disarming_le (options : SessionOptions) (seen : Bool) :
    disarming map options seen ≤ undoing map options := by
  refine mul_le_mul' le_rfl (mul_le_mul' le_rfl (mul_le_mul' ?_ le_rfl))
  by_cases h : options.contains SessionOptions.monitorS1 = true
  · rw [stopping, if_pos h, Bus.Script.given_pos h]
    exact mul_le_mul' le_rfl fun _ ⟨status, _, hes⟩ => ⟨status, hes⟩
  · rw [stopping, if_neg h, Bus.Script.given_neg h]
    exact fun _ hes => hes.2

theorem sighting_le (session : Session) (record : Wake.Record) :
    sighting map session record ≤ undoing map session.options * capturing map record := by
  rintro es ⟨seen, r, hrecord, -, -, hes⟩
  obtain ⟨undone, hundone, rest, hrest, rfl⟩ := Language.mem_mul.mp hes
  exact Language.append_mem_mul (disarming_le map _ _ hundone) ⟨r, seen, _, hrecord, hrest⟩

theorem follows_stopMonitor (options : SessionOptions) :
    Follows (stopMonitor map options) fun seen => stopping map options seen := by
  unfold stopMonitor
  by_cases h : options.contains SessionOptions.monitorS1 = true
  · rw [if_pos h]
    simp only [stopping, if_pos h]
    refine .seq (.modify _ (· &&& ~~~1#32)) fun _ => ?_
    refine ((Follows.read map.s1Status).bind fun status => .pure _).mono ?_
    rintro seen es ⟨status, hes⟩
    obtain ⟨_, rfl, _, ⟨hseen, rfl⟩, rfl⟩ := Language.mem_mul.mp hes
    exact ⟨status, hseen, rfl⟩
  · rw [if_neg h]
    simp only [stopping, if_neg h]
    exact .pure false

theorem follows_undoOptions (options : SessionOptions) :
    Follows (undoOptions map options) fun seen => disarming map options seen := by
  rw [undoOptions_eq]
  refine .seq (.when fun _ => Watchdog.follows_putControl map _ _) fun _ =>
    .seq (.when fun _ => .write _ _) fun _ => ?_
  refine ((follows_stopMonitor map options).bind fun seen =>
    .seq (.write map.externalClear 1#32) fun _ => .pure seen).mono ?_
  rintro seen es ⟨_, hes⟩
  obtain ⟨stopped, hstopped, rest, hrest, rfl⟩ := Language.mem_mul.mp hes
  obtain ⟨cleared, hcleared, _, ⟨rfl, rfl⟩, rfl⟩ := Language.mem_mul.mp hrest
  rw [List.append_nil]
  exact Language.append_mem_mul hstopped hcleared

theorem follows_capture (session : Session) :
    Follows (capture map session) fun r => {es |
      r.constraint = BitVec.ofNat 32 session.constraint ∧ r.core = BitVec.ofNat 32 session.core ∧
        es = captured map r} :=
  fun _ _ => ⟨_, ⟨rfl, rfl, rfl⟩, rfl⟩

theorem follows_markS1 (seen : Bool) (r : Wake.Record) :
    Follows (markS1 map seen r) fun m => {es | m = marked seen r ∧
      es ∈ given (seen = true) (store map.debugFlag (marked seen r).debugFlag)} := by
  cases seen with
  | false => exact fun _ _ => ⟨[], ⟨rfl, rfl⟩, rfl⟩
  | true => exact fun _ _ => ⟨_, ⟨rfl, rfl⟩, rfl⟩

theorem follows_captureWake (session : Session) :
    Follows (captureWake map session) fun r => {es |
      r.2 = Wake.Reason.decode r.1 ∧ es ∈ sighting map session r.1} := by
  refine ((follows_undoOptions map session.options).bind fun seen =>
    (follows_capture map session).bind fun r =>
    (follows_markS1 map seen r).bind fun m => .pure _).mono ?_
  rintro ⟨record, reason⟩ es ⟨seen, hes⟩
  obtain ⟨undone, hundone, rest, ⟨r, hrest⟩, rfl⟩ := Language.mem_mul.mp hes
  obtain ⟨_, ⟨hconstraint, hcore, rfl⟩, _, ⟨m, hmarks⟩, rfl⟩ := Language.mem_mul.mp hrest
  obtain ⟨mark, ⟨rfl, hmark⟩, _, ⟨hresult, rfl⟩, rfl⟩ := Language.mem_mul.mp hmarks
  obtain ⟨rfl, rfl⟩ := Prod.mk.inj hresult
  rw [List.append_nil]
  exact ⟨rfl, seen, r, rfl, hconstraint, hcore,
    Language.append_mem_mul hundone (Language.append_mem_mul rfl hmark)⟩

theorem follows_noteRecorded (record : Wake.Record) (category : Option Wake.Category) :
    Follows (noteRecorded record category) fun _ => 1 := by
  cases category with
  | none => exact .done _
  | some category => exact .note _

theorem follows_concludeWake (core : Nat) (record : Wake.Record) (reason : Wake.Reason) :
    Follows (concludeWake map core record reason) fun o => {es |
      o.record = record ∧ o.reason = reason ∧ es =
        [.read map.interruptStatus o.interruptStatus, .read map.sourceRequest o.sourceRequest]} :=
  fun _ _ => ⟨_, ⟨rfl, rfl, rfl⟩, rfl⟩

theorem follows_wakeUp_sighting (session : Session) :
    Follows (wakeUp map session) fun o => {es |
      o.reason = Wake.Reason.decode o.record ∧ es ∈ sighting map session o.record *
        {[.read map.interruptStatus o.interruptStatus,
          .read map.sourceRequest o.sourceRequest]}} := by
  refine ((follows_captureWake map session).bind fun r => .after (follows_noteRecorded r.1 _)
    fun _ => follows_concludeWake map session.core r.1 r.2).mono ?_
  rintro o es ⟨r, hes⟩
  obtain ⟨fs, ⟨hreason, hfs⟩, gs, ⟨hrecord, hdecoded, rfl⟩, rfl⟩ := Language.mem_mul.mp hes
  rw [← hrecord] at hfs hreason
  exact ⟨hdecoded.trans hreason, Language.append_mem_mul hfs rfl⟩

theorem follows_wakeUp (session : Session) :
    Follows (wakeUp map session) fun o => waking map session.options o := by
  refine (follows_wakeUp_sighting map session).mono fun o => ?_
  rw [waking, ← mul_assoc]
  exact fun es hes => mul_le_mul' (sighting_le map session o.record) le_rfl hes.2

variable {map}

theorem programmingWake_le (session : Session) : programmingWake map session ≤
    within map [.coreScratch, .coreMailbox, .wakeMask, .timerValue, .pcmControl] := by
  refine mul_le_only (store_le_within .coreScratch (by decide) _) ?_
  refine mul_le_only (store_le_within .coreMailbox (by decide) _) ?_
  refine mul_le_only (store_le_within .wakeMask (by decide) _) (given_le_only fun _ => ?_)
  exact mul_le_only (store_le_within .timerValue (by decide) _)
    (Watchdog.switching_le_within (by decide) _ _)

theorem programmingFlags_le (session : Session) (votes : ResourceSet) :
    programmingFlags map session votes ≤ within map [.swFlag0, .swFlag1, .sourceRequest] := by
  refine mul_le_only (store_le_within .swFlag0 (by decide) _) ?_
  exact mul_le_only (store_le_within .swFlag1 (by decide) _)
    (store_le_within .sourceRequest (by decide) _)

theorem programmingOptions_le (options : SessionOptions) : programmingOptions map options ≤
    within map [.clockRecord, .pcmControl, .timerValue, .watchdogValue, .crystal, .s1Control] := by
  refine mul_le_only (given_le_only fun _ => store_le_within .clockRecord (by decide) _) ?_
  refine mul_le_only (given_le_only fun _ => Watchdog.arming_le_within (by decide) (by decide)
    (by decide)) ?_
  refine mul_le_only (given_le_only fun _ => store_le_within .crystal (by decide) _) ?_
  exact given_le_only fun _ => modify_le_within .s1Control (by decide) _

theorem kicking_le (kind : Session.Kind) : kicking map kind ≤ within map [.kick, .pcmControl] := by
  refine mul_le_only (store_le_within .kick (by decide) _) ?_
  refine mul_le_only (store_le_within .kick (by decide) _) (given_le_only fun _ => ?_)
  exact Watchdog.switching_le_within (by decide) _ _

theorem undoing_le (options : SessionOptions) : undoing map options ≤
    within map [.pcmControl, .crystal, .s1Control] * store map.externalClear 1#32 := by
  rw [undoing, ← mul_assoc, ← mul_assoc]
  refine mul_le_mul' (mul_le_only (mul_le_only ?_ ?_) ?_) le_rfl
  · exact given_le_only fun _ => Watchdog.switching_le_within (by decide) _ _
  · exact given_le_only fun _ => store_le_within .crystal (by decide) _
  · exact given_le_only fun _ => mul_le_only (modify_le_within .s1Control (by decide) _)
      (load_le_only fun _ => trivial)

end Sequencer

end LowPower
