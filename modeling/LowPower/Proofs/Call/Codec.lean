import LowPower.Call.Codec
import LowPower.Proofs.Flags
import Mathlib.Algebra.Group.Nat.Defs

namespace LowPower

def Target.Expressible : Target → Prop
  | .all => True
  | .index i => i < 2 ^ 32 - 1

def Command.Expressible : Command → Prop
  | .setFlavor _ | .setWatchdog _ _ | .queryPll => True
  | .query target _ _ => target.Expressible
  | .update target (.setFlags flags) => target.Expressible ∧ flags.Named
  | .update target (.clearFlags flags) => target.Expressible ∧ flags.Named
  | .update _ _ => False

def Command.address : Command → Nat × Nat
  | .setFlavor _ => (2, 0)
  | .setWatchdog _ _ => (2, 1)
  | .queryPll => (2, 2)
  | .update _ _ | .query _ _ _ => (1, 0)

theorem Constraint.Query.ofCode?_eq_some_iff {code : Word} {query : Query} :
    ofCode? code = some query ↔ code = query.code :=
  ⟨fun h => (code_of_ofCode? h).symm, fun h => h ▸ ofCode?_code query⟩

theorem ConstraintFlags.lt_of_names {i : Nat} (h : vocabulary.Names i) : i < 16 := by
  obtain ⟨_, h⟩ := h
  have : i ≤ 8 := by
    simp [vocabulary] at h
    omega
  omega

namespace Call

namespace Arguments

def user (a : Arguments) : Nat := (a.id.extractLsb' 16 8).toNat

def function (a : Arguments) : Nat := (a.id.extractLsb' 0 16).toNat

def sets (a : Arguments) : Bool := a.action.getLsbD 0
def clears (a : Arguments) : Bool := a.action.getLsbD 1
def gets (a : Arguments) : Bool := a.action.getLsbD 2

structure Addressed (a : Arguments) : Prop where
  fits : a.id.toNat < 2 ^ 32
  magic : ∀ i, Call.magic.getLsbD i = true → a.id.getLsbD i = true

structure Names (a : Arguments) (user function : Nat) : Prop extends a.Addressed where
  user : a.user = user
  function : a.function = function

/-- The word with all bits stands for all constraints, and any other word for the one at that
index. -/
inductive Targets (a : Arguments) : Target → Prop
  | all (arg1 : a.arg1 = 0xFFFFFFFF#64) : Targets a .all
  | index {i : Nat} (bound : i < 2 ^ 32 - 1) (arg1 : a.arg1.toNat = i) : Targets a (.index i)

end Arguments

/-- What a call asks for. An action which gets counts before one which sets, and that before one
which clears. -/
inductive Asks (a : Arguments) : Command → Prop
  | sleep (names : a.Names 2 0) (flavor : a.arg2.getLsbD 27 = true) (sets : a.sets = true) :
    Asks a (.setFlavor .sleep)
  | powerDown (names : a.Names 2 0) (flavor : a.arg2.getLsbD 27 = true) (sets : a.sets = false)
      (clears : a.clears = true) : Asks a (.setFlavor .powerDown)
  | watchdog {enable : Bool} {ticks : Word} (names : a.Names 2 1)
      (action : a.sets = true ∨ a.clears = true) (sets : a.sets = enable)
      (arg2 : a.arg2 = ticks.setWidth 64) : Asks a (.setWatchdog enable ticks)
  | pllMode (names : a.Names 2 2) (gets : a.gets = true) : Asks a .queryPll
  | query {target : Target} {query : Constraint.Query} {clear : Bool} (names : a.Names 1 0)
      (gets : a.gets = true) (clears : a.clears = clear) (arg1 : a.Targets target)
      (arg2 : a.arg2 = query.code.setWidth 64) : Asks a (.query target query clear)
  | setFlags {target : Target} {flags : ConstraintFlags} (names : a.Names 1 0)
      (gets : a.gets = false) (sets : a.sets = true) (arg1 : a.Targets target)
      (arg2 : a.arg2 = flags.bits.setWidth 64) (named : flags.Named) :
    Asks a (.update target (.setFlags flags))
  | clearFlags {target : Target} {flags : ConstraintFlags} (names : a.Names 1 0)
      (gets : a.gets = false) (sets : a.sets = false) (clears : a.clears = true)
      (arg1 : a.Targets target) (arg2 : a.arg2 = flags.bits.setWidth 64) (named : flags.Named) :
    Asks a (.update target (.clearFlags flags))

inductive Malformed (a : Arguments) : Prop
  | wideIdentifier (wide : 2 ^ 32 ≤ a.id.toNat)
  | wrongMagic (i : Nat) (magic : magic.getLsbD i = true) (id : a.id.getLsbD i = false)
  | unknownUser (user : 2 < a.user)
  | coresUser (user : a.user = 0)
  | unknownDiagnosticsFunction (user : a.user = 1) (function : 0 < a.function)
  | unknownSequencerFunction (user : a.user = 2) (function : 2 < a.function)
  | missingDiagnosticsAction (user : a.user = 1) (gets : a.gets = false) (sets : a.sets = false)
      (clears : a.clears = false)
  | missingSequencerAction (user : a.user = 2) (function : a.function < 2)
      (sets : a.sets = false) (clears : a.clears = false)
  | missingModeAction (user : a.user = 2) (function : a.function = 2) (gets : a.gets = false)
  | missingFlavor (user : a.user = 2) (function : a.function = 0)
      (flavor : a.arg2.getLsbD 27 = false)
  | wideTicks (user : a.user = 2) (function : a.function = 1) (wide : 2 ^ 32 ≤ a.arg2.toNat)
  | wideTarget (user : a.user = 1) (wide : 2 ^ 32 ≤ a.arg1.toNat)
  | unknownKind (user : a.user = 1) (gets : a.gets = true)
      (kind : ∀ query : Constraint.Query, a.arg2 ≠ query.code.setWidth 64)
  | undefinedFlag (user : a.user = 1) (gets : a.gets = false) (i : Nat)
      (flag : a.arg2.getLsbD i = true) (undefined : ¬ ConstraintFlags.vocabulary.Names i)

theorem Asks.names {a : Arguments} {command : Command} (h : Asks a command) :
    a.Names command.address.1 command.address.2 := by
  cases h <;> assumption

theorem Asks.fields {a : Arguments} {command : Command} (h : Asks a command) :
    a.user = 2 ∧ a.function ≤ 2 ∨ a.user = 1 ∧ a.function = 0 := by
  rw [h.names.user, h.names.function]
  cases command <;> simp [Command.address]

theorem Arguments.Targets.fits {a : Arguments} {target : Target} (h : a.Targets target) :
    a.arg1.toNat < 2 ^ 32 := by
  cases h with
  | all arg1 => rw [arg1]; decide
  | index bound arg1 => omega

theorem Arguments.Targets.expressible {a : Arguments} {target : Target} (h : a.Targets target) :
    target.Expressible := by
  cases h with
  | all => trivial
  | index bound => exact bound

theorem Asks.expressible {a : Arguments} {command : Command} (h : Asks a command) :
    command.Expressible := by
  cases h with
  | sleep | powerDown | watchdog | pllMode => trivial
  | query _ _ _ arg1 => exact arg1.expressible
  | setFlags _ _ _ arg1 _ named | clearFlags _ _ _ _ arg1 _ named => exact ⟨arg1.expressible, named⟩

/-! ### Words and fields -/

theorem narrow?_eq_some_iff {w : Nat} (hw : w ≤ 64) {x : Word64} {y : BitVec w} :
    narrow? w x = some y ↔ x = y.setWidth 64 := by
  rw [narrow?]
  constructor
  · intro h
    split at h
    case isTrue fits =>
      rw [← Option.some.inj h, fits]
    case isFalse => cases h
  · rintro rfl
    rw [BitVec.setWidth_setWidth_of_le _ hw, BitVec.setWidth_eq, if_pos rfl]

theorem exists_eq_setWidth_iff {w : Nat} (hw : w ≤ 64) {x : Word64} :
    (∃ y : BitVec w, x = y.setWidth 64) ↔ x.toNat < 2 ^ w := by
  constructor
  · rintro ⟨y, rfl⟩
    rw [BitVec.toNat_setWidth_of_le hw]
    exact y.isLt
  · intro h
    refine ⟨x.setWidth w, BitVec.eq_of_toNat_eq ?_⟩
    rw [BitVec.toNat_setWidth_of_le hw, BitVec.toNat_setWidth, Nat.mod_eq_of_lt h]

theorem extractLsb'_setWidth {w i n : Nat} {x : Word} (h : i + n ≤ 32) (hw : 32 ≤ w) :
    (x.setWidth w).extractLsb' i n = x.extractLsb' i n := by
  apply BitVec.eq_of_getLsbD_eq
  intro j hj
  rw [BitVec.getLsbD_extractLsb', BitVec.getLsbD_extractLsb', BitVec.getLsbD_setWidth,
    decide_eq_true (show i + j < w by omega), Bool.true_and]

theorem and_magic_eq_iff {id : Word} :
    id &&& magic = magic ↔ ∀ i, magic.getLsbD i = true → id.getLsbD i = true := by
  constructor
  · intro h i hi
    rw [← h, BitVec.getLsbD_and, Bool.and_eq_true] at hi
    exact hi.1
  · intro h
    apply BitVec.eq_of_getLsbD_eq
    intro i _
    rw [BitVec.getLsbD_and]
    cases hi : magic.getLsbD i
    · exact Bool.and_false _
    · rw [h i hi]
      rfl

theorem getLsbD_action {a : Arguments} {i : Nat} (hi : i < 3) :
    (Flags.truncate a.action : CallAction).bits.getLsbD i = a.action.getLsbD i := by
  have known : CallAction.vocabulary.known.getLsbD i = true := by
    match i, hi with
    | 0, _ | 1, _ | 2, _ => decide
  rw [Flags.getLsbD_truncate, known, Bool.and_true]

@[simp] theorem contains_set (a : Arguments) :
    (Flags.truncate a.action : CallAction).contains CallAction.set = a.sets :=
  (Flags.contains_single (by decide) _).trans (getLsbD_action (by decide))

@[simp] theorem contains_clear (a : Arguments) :
    (Flags.truncate a.action : CallAction).contains CallAction.clear = a.clears :=
  (Flags.contains_single (by decide) _).trans (getLsbD_action (by decide))

@[simp] theorem contains_get (a : Arguments) :
    (Flags.truncate a.action : CallAction).contains CallAction.get = a.gets :=
  (Flags.contains_single (by decide) _).trans (getLsbD_action (by decide))

@[simp] theorem meets_set_clear (a : Arguments) :
    (Flags.truncate a.action : CallAction).meets (CallAction.set ∪ CallAction.clear) =
      (a.sets || a.clears) := by
  rw [Flags.meets_union, CallAction.set, CallAction.clear, Flags.meets_single (by decide),
    Flags.meets_single (by decide), getLsbD_action (by decide), getLsbD_action (by decide)]
  rfl

theorem Subsystem.ofNat?_eq_some_iff {n : Nat} {user : Subsystem} :
    ofNat? n = some user ↔ n = user.code := by
  match n with
  | 0 | 1 | 2 => cases user <;> simp [ofNat?, code]
  | n + 3 => cases user <;> simp [ofNat?, code]

theorem SequencerFunction.ofNat?_eq_some_iff {n : Nat} {function : SequencerFunction} :
    ofNat? n = some function ↔ n = function.code := by
  match n with
  | 0 | 1 | 2 => cases function <;> simp [ofNat?, code]
  | n + 3 => cases function <;> simp [ofNat?, code]

theorem DiagnosticsFunction.ofNat?_eq_some_iff {n : Nat} {function : DiagnosticsFunction} :
    ofNat? n = some function ↔ n = function.code := by
  match n with
  | 0 | n + 1 => cases function; simp [ofNat?, code]

/-! ### Decoding -/

theorem decodeSequencer_eq_some_iff {a : Arguments} {function : SequencerFunction}
    {command : Command} :
    decodeSequencer function (Flags.truncate a.action) a.arg2 = some command ↔
      match function with
      | .flavor => a.arg2.getLsbD 27 = true ∧
          (a.sets = true ∧ .setFlavor .sleep = command ∨
            a.sets = false ∧ a.clears = true ∧ .setFlavor .powerDown = command)
      | .watchdog => (a.sets = true ∨ a.clears = true) ∧
          ∃ ticks : Word, a.arg2 = ticks.setWidth 64 ∧ .setWatchdog a.sets ticks = command
      | .pllMode => a.gets = true ∧ .queryPll = command := by
  cases function with
  | flavor =>
    simp only [decodeSequencer, flavorBit, contains_set, contains_clear]
    cases a.arg2.getLsbD 27 <;> cases a.sets <;> cases a.clears <;> simp
  | watchdog =>
    simp only [decodeSequencer, meets_set_clear, contains_set, Bool.or_eq_true]
    split
    case isTrue h => simp [Option.map_eq_some_iff, narrow?_eq_some_iff, h]
    case isFalse h => simp [h]
  | pllMode =>
    simp only [decodeSequencer, contains_get]
    cases a.gets <;> simp

theorem query?_eq_some_iff {x : Word64} {query : Constraint.Query} :
    (narrow? 32 x).bind Constraint.Query.ofCode? = some query ↔ x = query.code.setWidth 64 := by
  simp [Option.bind_eq_some_iff, narrow?_eq_some_iff, Constraint.Query.ofCode?_eq_some_iff]

theorem flags?_eq_some_iff {x : Word64} {flags : ConstraintFlags} :
    (narrow? 16 x).bind Flags.ofBits? = some flags ↔
      x = flags.bits.setWidth 64 ∧ flags.Named := by
  simp only [Option.bind_eq_some_iff, narrow?_eq_some_iff (show 16 ≤ 64 by decide),
    Flags.ofBits?_eq_some_iff]
  constructor
  · rintro ⟨_, hx, rfl, named⟩
    exact ⟨hx, named⟩
  · rintro ⟨hx, named⟩
    exact ⟨_, hx, rfl, named⟩

theorem decodeDiagnostics_eq_some_iff {a : Arguments} {target : Target} {command : Command} :
    decodeDiagnostics (Flags.truncate a.action) target a.arg2 = some command ↔
      a.gets = true ∧ (∃ query : Constraint.Query, a.arg2 = query.code.setWidth 64 ∧
        .query target query a.clears = command) ∨
      a.gets = false ∧ ∃ flags : ConstraintFlags,
        (a.arg2 = flags.bits.setWidth 64 ∧ flags.Named) ∧
        (a.sets = true ∧ .update target (.setFlags flags) = command ∨
          a.sets = false ∧ a.clears = true ∧ .update target (.clearFlags flags) = command) := by
  simp only [decodeDiagnostics, contains_set, contains_clear, contains_get, Option.bind_eq_bind,
    ← Option.bind_assoc]
  cases a.gets with
  | true =>
    rw [if_pos rfl, Option.bind_eq_some_iff]
    simp [query?_eq_some_iff]
  | false =>
    rw [if_neg Bool.false_ne_true, Option.bind_eq_some_iff]
    simp only [flags?_eq_some_iff]
    cases a.sets <;> cases a.clears <;> simp

theorem addressed_iff {a : Arguments} :
    a.Addressed ↔ ∃ id : Word, a.id = id.setWidth 64 ∧ id &&& magic = magic := by
  constructor
  · rintro ⟨fits, h⟩
    obtain ⟨id, hid⟩ := (exists_eq_setWidth_iff (w := 32) (by decide)).mpr fits
    refine ⟨id, hid, and_magic_eq_iff.mpr fun i hi => ?_⟩
    have := h i hi
    rw [hid, BitVec.getLsbD_setWidth, Bool.and_eq_true] at this
    exact this.2
  · rintro ⟨id, hid, h⟩
    refine ⟨(exists_eq_setWidth_iff (w := 32) (by decide)).mp ⟨id, hid⟩, fun i hi => ?_⟩
    have hlt : i < 32 := BitVec.lt_of_getLsbD hi
    rw [hid, BitVec.getLsbD_setWidth, and_magic_eq_iff.mp h i hi, Bool.and_true]
    exact decide_eq_true (by omega)

theorem targets_iff {a : Arguments} {target : Target} :
    a.Targets target ↔ ∃ word : Word, a.arg1 = word.setWidth 64 ∧ Target.ofWord word = target := by
  constructor
  · rintro (arg1 | ⟨bound, rfl⟩)
    · exact ⟨Target.allWord, arg1, rfl⟩
    · obtain ⟨word, hword⟩ := (exists_eq_setWidth_iff (w := 32) (x := a.arg1) (by decide)).mpr
        (Nat.lt_of_lt_of_le bound (by decide))
      have toNat : a.arg1.toNat = word.toNat := by
        rw [hword, BitVec.toNat_setWidth_of_le (by decide)]
      refine ⟨word, hword, ?_⟩
      rw [Target.ofWord, if_neg, toNat]
      rintro rfl
      exact absurd (toNat ▸ bound) (by decide)
  · rintro ⟨word, hword, rfl⟩
    rw [Target.ofWord]
    split
    case isTrue h => exact .all (hword.trans (by rw [h]; rfl))
    case isFalse h =>
      have : word.toNat ≠ 2 ^ 32 - 1 := fun hn => h (BitVec.eq_of_toNat_eq hn)
      have := word.isLt
      refine .index (by omega) ?_
      rw [hword, BitVec.toNat_setWidth_of_le (by decide)]

theorem decode_eq_some_iff_fields {a : Arguments} {command : Command} :
    decode a = some command ↔ a.Addressed ∧
      (a.user = 2 ∧ (∃ function : SequencerFunction, a.function = function.code ∧
        decodeSequencer function (Flags.truncate a.action) a.arg2 = some command) ∨
      a.user = 1 ∧ a.function = 0 ∧ ∃ target, a.Targets target ∧
        decodeDiagnostics (Flags.truncate a.action) target a.arg2 = some command) := by
  have user_eq {id : Word} (h : a.id = id.setWidth 64) :
      (id.extractLsb' 16 8).toNat = a.user := by
    rw [Arguments.user, h]
    exact congrArg _ (extractLsb'_setWidth (by decide) (by decide)).symm
  have function_eq {id : Word} (h : a.id = id.setWidth 64) :
      (id.extractLsb' 0 16).toNat = a.function := by
    rw [Arguments.function, h]
    exact congrArg _ (extractLsb'_setWidth (by decide) (by decide)).symm
  rw [addressed_iff]
  simp only [decode, Option.bind_eq_bind, Option.bind_eq_some_iff,
    narrow?_eq_some_iff (show 32 ≤ 64 by decide)]
  constructor
  · rintro ⟨id, hid, h⟩
    rw [user_eq hid, function_eq hid] at h
    split at h
    case isFalse => cases h
    case isTrue hmagic =>
    refine ⟨⟨id, hid, hmagic⟩, ?_⟩
    obtain ⟨user, huser, h⟩ := Option.bind_eq_some_iff.mp h
    rw [Subsystem.ofNat?_eq_some_iff] at huser
    cases user with
    | cores => cases h
    | sequencer =>
      obtain ⟨function, hfunction, h⟩ := Option.bind_eq_some_iff.mp h
      exact .inl ⟨huser, function, SequencerFunction.ofNat?_eq_some_iff.mp hfunction, h⟩
    | diagnostics =>
      obtain ⟨function, hfunction, h⟩ := Option.bind_eq_some_iff.mp h
      obtain ⟨target, htarget, h⟩ := Option.bind_eq_some_iff.mp h
      rw [narrow?_eq_some_iff (by decide)] at htarget
      rw [DiagnosticsFunction.ofNat?_eq_some_iff] at hfunction
      exact .inr ⟨huser, hfunction, _, targets_iff.mpr ⟨target, htarget, rfl⟩, h⟩
  · rintro ⟨⟨id, hid, hmagic⟩, h⟩
    refine ⟨id, hid, ?_⟩
    rw [user_eq hid, function_eq hid, if_pos hmagic]
    obtain ⟨huser, function, hfunction, h⟩ | ⟨huser, hfunction, target, htarget, h⟩ := h
    · have huser : Subsystem.ofNat? a.user = some .sequencer :=
        Subsystem.ofNat?_eq_some_iff.mpr huser
      have hfunction := SequencerFunction.ofNat?_eq_some_iff.mpr hfunction
      simpa only [huser, hfunction, Option.bind_some] using h
    · have huser : Subsystem.ofNat? a.user = some .diagnostics :=
        Subsystem.ofNat?_eq_some_iff.mpr huser
      have hfunction : DiagnosticsFunction.ofNat? a.function = some .constraints :=
        DiagnosticsFunction.ofNat?_eq_some_iff.mpr hfunction
      obtain ⟨word, hword, rfl⟩ := targets_iff.mp htarget
      have hword := (narrow?_eq_some_iff (by decide)).mpr hword
      simpa only [huser, hfunction, hword, Option.bind_some] using h

theorem decode_eq_some_iff {a : Arguments} {command : Command} :
    decode a = some command ↔ Asks a command := by
  rw [decode_eq_some_iff_fields]
  constructor
  · rintro ⟨addressed, ⟨user, function, hfunction, h⟩ | ⟨user, hfunction, target, arg1, h⟩⟩
    · rw [decodeSequencer_eq_some_iff] at h
      have names : a.Names 2 function.code := ⟨addressed, user, hfunction⟩
      cases function with
      | flavor =>
        obtain ⟨flavor, ⟨sets, rfl⟩ | ⟨sets, clears, rfl⟩⟩ := h
        · exact .sleep names flavor sets
        · exact .powerDown names flavor sets clears
      | watchdog =>
        obtain ⟨action, ticks, arg2, rfl⟩ := h
        exact .watchdog names action rfl arg2
      | pllMode =>
        obtain ⟨gets, rfl⟩ := h
        exact .pllMode names gets
    · rw [decodeDiagnostics_eq_some_iff] at h
      have names : a.Names 1 0 := ⟨addressed, user, hfunction⟩
      obtain ⟨gets, query, arg2, rfl⟩ | ⟨gets, flags, ⟨arg2, named⟩, h⟩ := h
      · exact .query names gets rfl arg1 arg2
      · obtain ⟨sets, rfl⟩ | ⟨sets, clears, rfl⟩ := h
        · exact .setFlags names gets sets arg1 arg2 named
        · exact .clearFlags names gets sets clears arg1 arg2 named
  · intro h
    cases h with
    | sleep names flavor sets =>
      refine ⟨names.toAddressed, .inl ⟨names.user, .flavor, names.function, ?_⟩⟩
      exact decodeSequencer_eq_some_iff.mpr ⟨flavor, .inl ⟨sets, rfl⟩⟩
    | powerDown names flavor sets clears =>
      refine ⟨names.toAddressed, .inl ⟨names.user, .flavor, names.function, ?_⟩⟩
      exact decodeSequencer_eq_some_iff.mpr ⟨flavor, .inr ⟨sets, clears, rfl⟩⟩
    | watchdog names action sets arg2 =>
      refine ⟨names.toAddressed, .inl ⟨names.user, .watchdog, names.function, ?_⟩⟩
      exact decodeSequencer_eq_some_iff.mpr ⟨action, _, arg2, sets ▸ rfl⟩
    | pllMode names gets =>
      refine ⟨names.toAddressed, .inl ⟨names.user, .pllMode, names.function, ?_⟩⟩
      exact decodeSequencer_eq_some_iff.mpr ⟨gets, rfl⟩
    | query names gets clears arg1 arg2 =>
      refine ⟨names.toAddressed, .inr ⟨names.user, names.function, _, arg1, ?_⟩⟩
      exact decodeDiagnostics_eq_some_iff.mpr (.inl ⟨gets, _, arg2, clears ▸ rfl⟩)
    | setFlags names gets sets arg1 arg2 named =>
      refine ⟨names.toAddressed, .inr ⟨names.user, names.function, _, arg1, ?_⟩⟩
      exact decodeDiagnostics_eq_some_iff.mpr (.inr ⟨gets, _, ⟨arg2, named⟩, .inl ⟨sets, rfl⟩⟩)
    | clearFlags names gets sets clears arg1 arg2 named =>
      refine ⟨names.toAddressed, .inr ⟨names.user, names.function, _, arg1, ?_⟩⟩
      exact decodeDiagnostics_eq_some_iff.mpr
        (.inr ⟨gets, _, ⟨arg2, named⟩, .inr ⟨sets, clears, rfl⟩⟩)

/-! ### Malformed calls -/

theorem Asks.sequencer {a : Arguments} {command : Command} (h : Asks a command)
    (user : a.user = 2) :
    a.function = 2 ∧ a.gets = true ∨
    (a.sets = true ∨ a.clears = true) ∧
      (a.function = 0 ∧ a.arg2.getLsbD 27 = true ∨ a.function = 1 ∧ a.arg2.toNat < 2 ^ 32) := by
  cases h with
  | sleep names flavor sets => exact .inr ⟨.inl sets, .inl ⟨names.function, flavor⟩⟩
  | powerDown names flavor _ clears => exact .inr ⟨.inr clears, .inl ⟨names.function, flavor⟩⟩
  | watchdog names action _ arg2 =>
    exact .inr ⟨action, .inr ⟨names.function, (exists_eq_setWidth_iff (by decide)).mp ⟨_, arg2⟩⟩⟩
  | pllMode names gets => exact .inl ⟨names.function, gets⟩
  | query names | setFlags names | clearFlags names =>
    exact absurd (names.user.symm.trans user) (by decide)

theorem Asks.diagnostics {a : Arguments} {command : Command} (h : Asks a command)
    (user : a.user = 1) :
    a.arg1.toNat < 2 ^ 32 ∧
      (a.gets = true ∧ (∃ query : Constraint.Query, a.arg2 = query.code.setWidth 64) ∨
        a.gets = false ∧ (a.sets = true ∨ a.clears = true) ∧
          ∀ i, a.arg2.getLsbD i = true → ConstraintFlags.vocabulary.Names i) := by
  have named {flags : ConstraintFlags} (arg2 : a.arg2 = flags.bits.setWidth 64)
      (named : flags.Named) (i : Nat) (hi : a.arg2.getLsbD i = true) :
      ConstraintFlags.vocabulary.Names i := by
    rw [arg2, BitVec.getLsbD_setWidth, Bool.and_eq_true] at hi
    exact named i hi.2
  cases h with
  | sleep names | powerDown names | watchdog names | pllMode names =>
    exact absurd (names.user.symm.trans user) (by decide)
  | query _ gets _ arg1 arg2 => exact ⟨arg1.fits, .inl ⟨gets, _, arg2⟩⟩
  | setFlags _ gets sets arg1 arg2 h => exact ⟨arg1.fits, .inr ⟨gets, .inl sets, named arg2 h⟩⟩
  | clearFlags _ gets _ clears arg1 arg2 h =>
    exact ⟨arg1.fits, .inr ⟨gets, .inr clears, named arg2 h⟩⟩

theorem Malformed.not_asks {a : Arguments} (h : Malformed a) (command : Command) :
    ¬ Asks a command := by
  intro asks
  cases h with
  | wideIdentifier wide => exact absurd asks.names.fits (Nat.not_lt.mpr wide)
  | wrongMagic i magic id => exact absurd (asks.names.magic i magic) (by simp [id])
  | unknownUser user => have := asks.fields; omega
  | coresUser user => have := asks.fields; omega
  | unknownDiagnosticsFunction user function => have := asks.fields; omega
  | unknownSequencerFunction user function => have := asks.fields; omega
  | missingDiagnosticsAction user gets sets clears =>
    have := (asks.diagnostics user).2
    simp [gets, sets, clears] at this
  | missingSequencerAction user function sets clears =>
    obtain ⟨mode, -⟩ | ⟨action, -⟩ := asks.sequencer user
    · omega
    · simp [sets, clears] at action
  | missingModeAction user function gets =>
    have := asks.sequencer user
    simp [function, gets] at this
  | missingFlavor user function flavor =>
    obtain ⟨mode, -⟩ | ⟨-, ⟨-, given⟩ | ⟨watchdog, -⟩⟩ := asks.sequencer user
    · omega
    · exact Bool.false_ne_true (flavor.symm.trans given)
    · omega
  | wideTicks user function wide =>
    obtain ⟨mode, -⟩ | ⟨-, ⟨flavor, -⟩ | ⟨-, fits⟩⟩ := asks.sequencer user <;> omega
  | wideTarget user wide => exact absurd (asks.diagnostics user).1 (Nat.not_lt.mpr wide)
  | unknownKind user gets kind =>
    have := (asks.diagnostics user).2
    simp [gets, kind] at this
  | undefinedFlag user gets i flag undefined =>
    have := (asks.diagnostics user).2
    simp only [gets, Bool.false_eq_true, false_and, true_and, false_or] at this
    exact undefined (this.2 i flag)

theorem asks_or_malformed_sequencer {a : Arguments} (addressed : a.Addressed) (user : a.user = 2) :
    (∃ command, Asks a command) ∨ Malformed a := by
  by_cases mode : a.function = 2
  · by_cases gets : a.gets = true
    · exact .inl ⟨_, .pllMode ⟨addressed, user, mode⟩ gets⟩
    · exact .inr (.missingModeAction user mode (eq_false_of_ne_true gets))
  by_cases unknown : 2 < a.function
  · exact .inr (.unknownSequencerFunction user unknown)
  by_cases action : a.sets = false ∧ a.clears = false
  · exact .inr (.missingSequencerAction user (by omega) action.1 action.2)
  by_cases function : a.function = 0
  · have names : a.Names 2 0 := ⟨addressed, user, function⟩
    by_cases flavor : a.arg2.getLsbD 27 = true
    · cases sets : a.sets with
      | true => exact .inl ⟨_, .sleep names flavor sets⟩
      | false => exact .inl ⟨_, .powerDown names flavor sets (by grind)⟩
    · exact .inr (.missingFlavor user function (eq_false_of_ne_true flavor))
  · have names : a.Names 2 1 := ⟨addressed, user, by omega⟩
    by_cases fits : a.arg2.toNat < 2 ^ 32
    · obtain ⟨ticks, arg2⟩ := (exists_eq_setWidth_iff (w := 32) (by decide)).mpr fits
      exact .inl ⟨_, .watchdog names (by grind) rfl arg2⟩
    · exact .inr (.wideTicks user names.function (Nat.not_lt.mp fits))

theorem asks_or_malformed_diagnostics {a : Arguments} (addressed : a.Addressed)
    (user : a.user = 1) : (∃ command, Asks a command) ∨ Malformed a := by
  by_cases unknown : 0 < a.function
  · exact .inr (.unknownDiagnosticsFunction user unknown)
  have names : a.Names 1 0 := ⟨addressed, user, by omega⟩
  by_cases fits : a.arg1.toNat < 2 ^ 32
  case neg => exact .inr (.wideTarget user (Nat.not_lt.mp fits))
  obtain ⟨word, hword⟩ := (exists_eq_setWidth_iff (w := 32) (by decide)).mpr fits
  have arg1 : a.Targets (.ofWord word) := targets_iff.mpr ⟨word, hword, rfl⟩
  cases gets : a.gets with
  | true =>
    by_cases kind : ∃ query : Constraint.Query, a.arg2 = query.code.setWidth 64
    · obtain ⟨query, arg2⟩ := kind
      exact .inl ⟨_, .query names gets rfl arg1 arg2⟩
    · exact .inr (.unknownKind user gets (not_exists.mp kind))
  | false =>
    by_cases defined : ∀ i, a.arg2.getLsbD i = true → ConstraintFlags.vocabulary.Names i
    case neg =>
      obtain ⟨i, hi⟩ := Classical.not_forall.mp defined
      obtain ⟨flag, undefined⟩ := Classical.not_imp.mp hi
      exact .inr (.undefinedFlag user gets i flag undefined)
    have arg2 : a.arg2 = (a.arg2.setWidth 16).setWidth 64 := by
      apply BitVec.eq_of_getLsbD_eq
      intro i hi
      rw [BitVec.getLsbD_setWidth, BitVec.getLsbD_setWidth]
      cases flag : a.arg2.getLsbD i
      · simp
      · simp [hi, ConstraintFlags.lt_of_names (defined i flag)]
    have named : Flags.Named (⟨a.arg2.setWidth 16⟩ : ConstraintFlags) := by
      intro i hi
      rw [BitVec.getLsbD_setWidth, Bool.and_eq_true] at hi
      exact defined i hi.2
    cases sets : a.sets with
    | true => exact .inl ⟨_, .setFlags names gets sets arg1 arg2 named⟩
    | false =>
      cases clears : a.clears with
      | true => exact .inl ⟨_, .clearFlags names gets sets clears arg1 arg2 named⟩
      | false => exact .inr (.missingDiagnosticsAction user gets sets clears)

theorem asks_or_malformed (a : Arguments) : (∃ command, Asks a command) ∨ Malformed a := by
  by_cases fits : a.id.toNat < 2 ^ 32
  case neg => exact .inr (.wideIdentifier (Nat.not_lt.mp fits))
  by_cases hmagic : ∀ i, magic.getLsbD i = true → a.id.getLsbD i = true
  case neg =>
    obtain ⟨i, hi⟩ := Classical.not_forall.mp hmagic
    obtain ⟨magic, id⟩ := Classical.not_imp.mp hi
    exact .inr (.wrongMagic i magic (eq_false_of_ne_true id))
  have addressed : a.Addressed := ⟨fits, hmagic⟩
  obtain user | user | user | user : a.user = 0 ∨ a.user = 1 ∨ a.user = 2 ∨ 2 < a.user := by omega
  · exact .inr (.coresUser user)
  · exact asks_or_malformed_diagnostics addressed user
  · exact asks_or_malformed_sequencer addressed user
  · exact .inr (.unknownUser user)

theorem decode_eq_none_iff {a : Arguments} : decode a = none ↔ Malformed a := by
  constructor
  · intro h
    obtain ⟨command, asks⟩ | malformed := asks_or_malformed a
    · rw [decode_eq_some_iff.mpr asks] at h
      cases h
    · exact malformed
  · intro h
    rw [Option.eq_none_iff_forall_not_mem]
    exact fun command hc => h.not_asks command (decode_eq_some_iff.mp hc)

theorem decode_congr {a b : Arguments} (id : a.id = b.id) (arg1 : a.arg1 = b.arg1)
    (arg2 : a.arg2 = b.arg2) (action : ∀ i < 3, a.action.getLsbD i = b.action.getLsbD i) :
    decode a = decode b := by
  have truncated : (Flags.truncate a.action : CallAction) = Flags.truncate b.action := by
    apply Flags.ext
    apply BitVec.eq_of_getLsbD_eq
    intro i _
    rw [Flags.getLsbD_truncate, Flags.getLsbD_truncate]
    cases hi : CallAction.vocabulary.known.getLsbD i
    · rw [Bool.and_false, Bool.and_false]
    · obtain ⟨-, name, h⟩ := (Vocabulary.getLsbD_known _ _).mp hi
      have : i < 3 := by
        simp [CallAction.vocabulary] at h
        omega
      rw [action i this]
  simp only [decode, id, arg1, arg2, truncated]

/-! ### Encoding -/

theorem names_identifier {a : Arguments} {user : Subsystem} {function : Word} {u f : Nat}
    (h : a.id = identifier user function) (hu : user.code = u) (hf : function.toNat = f)
    (small : f < 2 ^ 16) : a.Names u f := by
  subst hu hf
  rw [identifier] at h
  have addressed : a.Addressed := by
    refine addressed_iff.mpr ⟨_, h, and_magic_eq_iff.mpr fun i hi => ?_⟩
    rw [BitVec.getLsbD_or, BitVec.getLsbD_or, hi, Bool.true_or, Bool.true_or]
  refine ⟨addressed, ?_, ?_⟩
  · have shape : ∀ j < 8, magic.getLsbD (16 + j) = false ∧
        (0x0000FFFF#32).getLsbD (16 + j) = false ∧
        ((BitVec.ofNat 32 user.code &&& 0x000000FF#32) <<< 16).getLsbD (16 + j) =
          (BitVec.ofNat 8 user.code).getLsbD j := by
      cases user <;> decide
    have user_eq : a.id.extractLsb' 16 8 = BitVec.ofNat 8 user.code := by
      rw [h, extractLsb'_setWidth (by decide) (by decide)]
      apply BitVec.eq_of_getLsbD_eq
      intro j hj
      obtain ⟨high, low, field⟩ := shape j hj
      rw [BitVec.getLsbD_extractLsb', BitVec.getLsbD_or, BitVec.getLsbD_or, BitVec.getLsbD_and,
        high, low, field]
      simp [hj]
    rw [Arguments.user, user_eq]
    cases user <;> rfl
  · have shape : ∀ j < 16, magic.getLsbD (0 + j) = false ∧
        (0x0000FFFF#32).getLsbD (0 + j) = true ∧
        ((BitVec.ofNat 32 user.code &&& 0x000000FF#32) <<< 16).getLsbD (0 + j) = false := by
      cases user <;> decide
    have function_eq : a.id.extractLsb' 0 16 = function.setWidth 16 := by
      rw [h, extractLsb'_setWidth (by decide) (by decide)]
      apply BitVec.eq_of_getLsbD_eq
      intro j hj
      obtain ⟨high, low, field⟩ := shape j hj
      rw [BitVec.getLsbD_extractLsb', BitVec.getLsbD_or, BitVec.getLsbD_or, BitVec.getLsbD_and,
        high, low, field, Nat.zero_add, BitVec.getLsbD_setWidth]
      simp
    rw [Arguments.function, function_eq, BitVec.toNat_setWidth, Nat.mod_eq_of_lt small]

theorem targets_targetWord {a : Arguments} {target : Target} (h : target.Expressible)
    (arg1 : a.arg1 = targetWord target) : a.Targets target := by
  cases target with
  | all => exact .all arg1
  | index i =>
    have bound : i < 2 ^ 32 - 1 := h
    refine .index bound ?_
    rw [arg1, targetWord, BitVec.toNat_ofNat, Nat.mod_eq_of_lt (by omega)]

theorem encode_asks {command : Command} (h : command.Expressible) :
    ∃ a, encode command = some a ∧ Asks a command := by
  have setting : CallAction.set.bits.getLsbD 0 = true ∧ CallAction.set.bits.getLsbD 2 = false := by
    decide
  have clearing : CallAction.clear.bits.getLsbD 0 = false ∧
      CallAction.clear.bits.getLsbD 1 = true ∧ CallAction.clear.bits.getLsbD 2 = false := by
    decide
  have getting : CallAction.get.bits.getLsbD 1 = false ∧ CallAction.get.bits.getLsbD 2 = true := by
    decide
  have both : (CallAction.get ∪ CallAction.clear).bits.getLsbD 1 = true ∧
      (CallAction.get ∪ CallAction.clear).bits.getLsbD 2 = true := by
    decide
  cases command with
  | setFlavor flavor =>
    have flavorSet : (BitVec.twoPow 64 flavorBit).getLsbD 27 = true := by decide
    have names {a : Arguments} (ha : a.id = identifier .sequencer 0#32) : a.Names 2 0 :=
      names_identifier ha rfl rfl (by decide)
    cases flavor with
    | sleep => exact ⟨_, rfl, .sleep (names rfl) flavorSet setting.1⟩
    | powerDown => exact ⟨_, rfl, .powerDown (names rfl) flavorSet clearing.1 clearing.2.1⟩
  | setWatchdog enable ticks =>
    have names {a : Arguments} (ha : a.id = identifier .sequencer 1#32) : a.Names 2 1 :=
      names_identifier ha rfl rfl (by decide)
    cases enable with
    | true => exact ⟨_, rfl, .watchdog (names rfl) (.inl setting.1) setting.1 rfl⟩
    | false => exact ⟨_, rfl, .watchdog (names rfl) (.inr clearing.2.1) clearing.1 rfl⟩
  | queryPll => exact ⟨_, rfl, .pllMode (names_identifier rfl rfl rfl (by decide)) getting.2⟩
  | query target query clear =>
    have names {a : Arguments} (ha : a.id = identifier .diagnostics 0#32) : a.Names 1 0 :=
      names_identifier ha rfl rfl (by decide)
    cases clear with
    | true =>
      exact ⟨_, rfl, .query (names rfl) both.2 both.1 (targets_targetWord h rfl) rfl⟩
    | false =>
      exact ⟨_, rfl, .query (names rfl) getting.2 getting.1 (targets_targetWord h rfl) rfl⟩
  | update target request =>
    have names {a : Arguments} (ha : a.id = identifier .diagnostics 0#32) : a.Names 1 0 :=
      names_identifier ha rfl rfl (by decide)
    cases request with
    | setFlags flags =>
      exact ⟨_, rfl, .setFlags (names rfl) setting.2 setting.1 (targets_targetWord h.1 rfl) rfl h.2⟩
    | clearFlags flags =>
      exact ⟨_, rfl, .clearFlags (names rfl) clearing.2.2 clearing.1 clearing.2.1
        (targets_targetWord h.1 rfl) rfl h.2⟩
    | _ => cases h

/-- Each command for which there is a call is encoded as one which asks for it. Each call either
asks for one command, which its bits tell, or is malformed; calls for one command agree in the
fields of the identifier. The bits of an action beyond the named ones do not matter. -/
theorem codec_characterised :
    (∀ command : Command, command.Expressible →
      ∃ a, encode command = some a ∧ decode a = some command) ∧
    (∀ (a : Arguments) (command : Command), decode a = some command ↔ Asks a command) ∧
    (∀ (a : Arguments) (command : Command), decode a = some command →
      command.Expressible ∧
        ∃ b, encode command = some b ∧ b.user = a.user ∧ b.function = a.function) ∧
    (∀ a b : Arguments, a.id = b.id → a.arg1 = b.arg1 → a.arg2 = b.arg2 →
      (∀ i < 3, a.action.getLsbD i = b.action.getLsbD i) → decode a = decode b) ∧
    ∀ a : Arguments, decode a = none ↔ Malformed a := by
  refine ⟨?round, fun a command => decode_eq_some_iff, ?image, fun a b => decode_congr,
    fun a => decode_eq_none_iff⟩
  case round =>
    intro command h
    obtain ⟨a, encoded, asks⟩ := encode_asks h
    exact ⟨a, encoded, decode_eq_some_iff.mpr asks⟩
  case image =>
    intro a command h
    have asks := decode_eq_some_iff.mp h
    obtain ⟨b, encoded, canonical⟩ := encode_asks asks.expressible
    exact ⟨asks.expressible, b, encoded, canonical.names.user.trans asks.names.user.symm,
      canonical.names.function.trans asks.names.function.symm⟩

theorem codec_characterised_ready :
    (∃ a, encode (.update (.index 7) (.setFlags ConstraintFlags.ready)) = some a ∧
      decode a = some (.update (.index 7) (.setFlags ConstraintFlags.ready))) ∧
    decode ⟨0xDA020003#64, 0x1#64, 0#64, 0#64⟩ = none := by
  have named : ConstraintFlags.ready.Named :=
    (Flags.ofBits?_eq_some_iff.mp
      (show Flags.ofBits? ConstraintFlags.ready.bits = some ConstraintFlags.ready by decide)).2
  refine ⟨codec_characterised.1 _ ⟨?_, named⟩, (codec_characterised.2.2.2.2 _).mpr ?_⟩
  · exact show 7 < 2 ^ 32 - 1 by decide
  · exact .unknownSequencerFunction (by decide) (by decide)

end Call

end LowPower
