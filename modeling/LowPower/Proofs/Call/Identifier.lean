import LowPower.Proofs.Call.Codec

/-!
Which identifiers are accepted. The magic of an identifier is compared under itself, so that its
clear bits are not looked at: an identifier is accepted if it is that of a function up to these.
-/

namespace LowPower.Call

/-- The bits of the upper byte which the magic does not have. -/
def spare : Word64 := 0x25000000#64

def Alike (x y : Word64) : Prop := x &&& ~~~spare = y &&& ~~~spare

inductive Defined : Word64 → Prop
  | sequencer (function : SequencerFunction) :
    Defined (identifier .sequencer (BitVec.ofNat 32 function.code))
  | diagnostics (function : DiagnosticsFunction) :
    Defined (identifier .diagnostics (BitVec.ofNat 32 function.code))

variable {a b : Arguments} {command : Command} {x y : Word64} {user function : Nat}

theorem Alike.symm (h : Alike x y) : Alike y x := Eq.symm h

theorem spare_iff {i : Nat} :
    spare.getLsbD i = true ↔ 24 ≤ i ∧ i < 32 ∧ magic.getLsbD i = false := by
  by_cases hi : i < 64
  · revert i
    decide
  · rw [BitVec.getLsbD_of_ge _ _ (Nat.not_lt.mp hi)]
    exact ⟨nofun, fun h => absurd (Nat.lt_trans h.2.1 (by decide)) hi⟩

theorem alike_iff : Alike x y ↔ ∀ i, spare.getLsbD i = false → x.getLsbD i = y.getLsbD i := by
  constructor
  · intro h i hi
    by_cases hlt : i < 64
    · have kept (w : Word64) : (w &&& ~~~spare).getLsbD i = w.getLsbD i := by
        rw [BitVec.getLsbD_and, BitVec.getLsbD_not, hi, decide_eq_true hlt]
        exact Bool.and_true _
      rw [← kept x, ← kept y, h]
    · rw [BitVec.getLsbD_of_ge _ _ (Nat.not_lt.mp hlt),
        BitVec.getLsbD_of_ge _ _ (Nat.not_lt.mp hlt)]
  · intro h
    apply BitVec.eq_of_getLsbD_eq
    intro i _
    cases hi : spare.getLsbD i <;> simp [hi, h]

theorem Alike.extractLsb' (h : Alike x y) {i n : Nat} (within : i + n ≤ 24) :
    x.extractLsb' i n = y.extractLsb' i n := by
  apply BitVec.eq_of_getLsbD_eq
  intro j hj
  rw [BitVec.getLsbD_extractLsb', BitVec.getLsbD_extractLsb',
    alike_iff.mp h _ (eq_false_of_ne_true fun hs => by have := spare_iff.mp hs; omega)]

theorem getLsbD_of_extractLsb'_eq {i n j : Nat} (h : x.extractLsb' i n = y.extractLsb' i n)
    (hj : j < n) : x.getLsbD (i + j) = y.getLsbD (i + j) := by
  have := congrArg (BitVec.getLsbD · j) h
  simpa [BitVec.getLsbD_extractLsb', hj] using this

theorem fits_iff : x.toNat < 2 ^ 32 ↔ ∀ i, 32 ≤ i → x.getLsbD i = false := by
  constructor
  · intro h i hi
    exact Nat.testBit_lt_two_pow (Nat.lt_of_lt_of_le h (Nat.pow_le_pow_right (by decide) hi))
  · exact fun h => Nat.lt_pow_two_of_testBit _ h

theorem Arguments.Names.of_alike (names : a.Names user function) (h : Alike a.id b.id) :
    b.Names user function where
  fits := by
    refine fits_iff.mpr fun i hi => ?_
    have clear : spare.getLsbD i = false :=
      eq_false_of_ne_true fun hs => by have := spare_iff.mp hs; omega
    rw [← alike_iff.mp h i clear, fits_iff.mp names.fits i hi]
  magic i hi := by
    have clear : spare.getLsbD i = false :=
      eq_false_of_ne_true fun hs => by simp [spare_iff, hi] at hs
    rw [← alike_iff.mp h i clear, names.magic i hi]
  user := by rw [Arguments.user, ← h.extractLsb' (by decide)]; exact names.user
  function := by rw [Arguments.function, ← h.extractLsb' (by decide)]; exact names.function

theorem Arguments.Names.alike (ha : a.Names user function) (hb : b.Names user function) :
    Alike a.id b.id := by
  rw [alike_iff]
  intro i hi
  by_cases wide : 32 ≤ i
  · rw [fits_iff.mp ha.fits i wide, fits_iff.mp hb.fits i wide]
  by_cases upper : 24 ≤ i
  · cases set : magic.getLsbD i with
    | true => rw [ha.magic i set, hb.magic i set]
    | false =>
      have := spare_iff.mpr ⟨upper, Nat.not_le.mp wide, set⟩
      exact absurd (hi.symm.trans this) Bool.false_ne_true
  by_cases middle : 16 ≤ i
  · have := getLsbD_of_extractLsb'_eq (j := i - 16)
      (BitVec.eq_of_toNat_eq (ha.user.trans hb.user.symm)) (by omega)
    rwa [Nat.add_sub_cancel' middle] at this
  · have := getLsbD_of_extractLsb'_eq (j := i)
      (BitVec.eq_of_toNat_eq (ha.function.trans hb.function.symm)) (by omega)
    rwa [Nat.zero_add] at this

theorem Arguments.Targets.with_id {target : Target} (h : a.Targets target) (id : Word64) :
    Targets { a with id } target := by
  cases h with
  | all arg1 => exact .all arg1
  | index bound arg1 => exact .index bound arg1

theorem Asks.with_id {id : Word64} (h : Asks a command) (alike : Alike a.id id) :
    Asks { a with id } command := by
  have names : Arguments.Names { a with id } command.address.1 command.address.2 :=
    h.names.of_alike alike
  cases h with
  | sleep _ flavor sets => exact .sleep names flavor sets
  | powerDown _ flavor sets clears => exact .powerDown names flavor sets clears
  | watchdog _ action sets arg2 => exact .watchdog names action sets arg2
  | pllMode _ gets => exact .pllMode names gets
  | query _ gets clears arg1 arg2 => exact .query names gets clears (arg1.with_id id) arg2
  | setFlags _ gets sets arg1 arg2 named =>
    exact .setFlags names gets sets (arg1.with_id id) arg2 named
  | clearFlags _ gets sets clears arg1 arg2 named =>
    exact .clearFlags names gets sets clears (arg1.with_id id) arg2 named

theorem SequencerFunction.code_lt (function : SequencerFunction) : function.code < 3 := by
  cases function <;> decide

theorem names_sequencer (function : SequencerFunction)
    (h : a.id = identifier .sequencer (BitVec.ofNat 32 function.code)) :
    a.Names 2 function.code := by
  have small := function.code_lt
  refine names_identifier h rfl ?_ (by omega)
  rw [BitVec.toNat_ofNat, Nat.mod_eq_of_lt (by omega)]

theorem names_diagnostics (function : DiagnosticsFunction)
    (h : a.id = identifier .diagnostics (BitVec.ofNat 32 function.code)) : a.Names 1 0 := by
  cases function with
  | constraints => exact names_identifier h rfl rfl (by decide)

theorem Defined.asked (h : Defined x) : ∃ b command, Asks b command ∧ b.id = x := by
  have encoded (command : Command) (expressible : command.Expressible)
      (hid : ∀ b, encode command = some b → b.id = x) : ∃ b command, Asks b command ∧ b.id = x := by
    obtain ⟨b, hb, asks⟩ := encode_asks expressible
    exact ⟨b, command, asks, hid b hb⟩
  cases h with
  | sequencer function =>
    cases function with
    | flavor => exact encoded (.setFlavor .sleep) trivial fun _ h => by cases h; rfl
    | watchdog => exact encoded (.setWatchdog true 0#32) trivial fun _ h => by cases h; rfl
    | pllMode => exact encoded .queryPll trivial fun _ h => by cases h; rfl
  | diagnostics function =>
    cases function with
    | constraints =>
      exact encoded (.query .all .entries false) trivial fun _ h => by cases h; rfl

theorem getLsbD_identifier_of_spare (user : Subsystem) (function : Word) {i : Nat}
    (hi : spare.getLsbD i = true) : (identifier user function).getLsbD i = false := by
  obtain ⟨lower, upper, hmagic⟩ := spare_iff.mp hi
  have shape : ∀ j < 32, 24 ≤ j → (0x0000FFFF#32).getLsbD j = false ∧
      ((BitVec.ofNat 32 user.code &&& 0x000000FF#32) <<< 16).getLsbD j = false := by
    cases user <;> decide
  obtain ⟨low, field⟩ := shape i upper lower
  rw [identifier, BitVec.getLsbD_setWidth, BitVec.getLsbD_or, BitVec.getLsbD_or,
    BitVec.getLsbD_and, hmagic, low, field, Bool.and_false, Bool.or_false, Bool.or_false,
    Bool.and_false]

theorem alike_identifier_iff {user : Subsystem} {function : Word} :
    Alike x (identifier user function) ↔ x &&& ~~~spare = identifier user function := by
  have canonical : identifier user function &&& ~~~spare = identifier user function := by
    apply BitVec.eq_of_getLsbD_eq
    intro i hi
    rw [BitVec.getLsbD_and, BitVec.getLsbD_not, decide_eq_true hi, Bool.true_and]
    cases hs : spare.getLsbD i with
    | false => exact Bool.and_true _
    | true => rw [getLsbD_identifier_of_spare user function hs, Bool.false_and]
  rw [Alike, canonical]

theorem Asks.defined (h : Asks a command) : Defined (a.id &&& ~~~spare) := by
  have sequencer (function : SequencerFunction) (names : a.Names 2 function.code) :
      Defined (a.id &&& ~~~spare) := by
    have canonical := names_sequencer (a := ⟨_, 0#64, 0#64, 0#64⟩) function rfl
    rw [alike_identifier_iff.mp (names.alike canonical)]
    exact .sequencer function
  have diagnostics (names : a.Names 1 0) : Defined (a.id &&& ~~~spare) := by
    have canonical := names_diagnostics (a := ⟨_, 0#64, 0#64, 0#64⟩) .constraints rfl
    rw [alike_identifier_iff.mp (names.alike canonical)]
    exact .diagnostics .constraints
  cases h with
  | sleep names | powerDown names => exact sequencer .flavor names
  | watchdog names => exact sequencer .watchdog names
  | pllMode names => exact sequencer .pllMode names
  | query names | setFlags names | clearFlags names => exact diagnostics names

theorem Defined.and_not_spare (h : Defined x) : x &&& ~~~spare = x := by
  cases h <;> exact alike_identifier_iff.mp rfl

theorem and_not_spare_eq_iff : x &&& ~~~spare = x ↔ x &&& spare = 0#64 := by
  constructor
  · intro h
    calc x &&& spare = x &&& ~~~spare &&& spare := by rw [h]
      _ = x &&& (~~~spare &&& spare) := BitVec.and_assoc x _ _
      _ = 0#64 := by rw [show ~~~spare &&& spare = 0#64 by decide, BitVec.and_zero]
  · intro h
    calc x &&& ~~~spare = x &&& spare ||| x &&& ~~~spare := by rw [h, BitVec.zero_or]
      _ = x &&& (spare ||| ~~~spare) := BitVec.and_or_distrib_left.symm
      _ = x := by rw [show spare ||| ~~~spare = BitVec.allOnes 64 by decide, BitVec.and_allOnes]

/-- There are calls with an identifier exactly if it is that of a function up to its spare bits, so
that it is that of a function exactly if none of these is set. By another identifier the same
command is asked for, with the same other arguments, exactly if the two differ in spare bits
only. -/
theorem identifiers_accepted (id : Word64) :
    ((∃ action arg1 arg2 command, decode ⟨id, action, arg1, arg2⟩ = some command) ↔
      Defined (id &&& ~~~spare)) ∧
    ∀ (action arg1 arg2 : Word64) (command : Command),
      decode ⟨id, action, arg1, arg2⟩ = some command →
      (Defined id ↔ id &&& spare = 0#64) ∧
      ∀ id', decode ⟨id', action, arg1, arg2⟩ = some command ↔
        id' &&& ~~~spare = id &&& ~~~spare := by
  refine ⟨⟨?accepted, ?defined⟩, fun action arg1 arg2 command h => ⟨⟨?clear, ?plain⟩, ?same⟩⟩
  case accepted =>
    rintro ⟨action, arg1, arg2, command, h⟩
    exact (decode_eq_some_iff.mp h).defined
  case defined =>
    intro h
    obtain ⟨b, command, asks, hid⟩ := h.asked
    have alike : Alike b.id id := by rw [hid, Alike, h.and_not_spare]
    exact ⟨_, _, _, command, decode_eq_some_iff.mpr (asks.with_id alike)⟩
  case clear => exact fun defined => and_not_spare_eq_iff.mp defined.and_not_spare
  case plain =>
    intro clear
    have defined := (decode_eq_some_iff.mp h).defined
    rwa [and_not_spare_eq_iff.mpr clear] at defined
  case same =>
    intro id'
    have asks := decode_eq_some_iff.mp h
    constructor
    · exact fun h' => (decode_eq_some_iff.mp h').names.alike asks.names
    · exact fun alike => decode_eq_some_iff.mpr (asks.with_id (Alike.symm alike))

theorem identifiers_accepted_pll_mode :
    decode ⟨0xDA020002#64, CallAction.get.bits, 0#64, 0#64⟩ = some .queryPll ∧
    decode ⟨0xDB020002#64, CallAction.get.bits, 0#64, 0#64⟩ = some .queryPll := by
  have asked : decode ⟨0xDA020002#64, CallAction.get.bits, 0#64, 0#64⟩ = some .queryPll := by
    decide
  exact ⟨asked, (((identifiers_accepted _).2 _ _ _ _ asked).2 0xDB020002#64).mpr (by decide)⟩

/-- No function has the identifier with all bits of the upper byte, and yet a command is asked for
by it: the same as by an identifier which is less by the spare bits. -/
theorem accepted_beyond_identifiers :
    decode ⟨0xFF020002#64, CallAction.get.bits, 0#64, 0#64⟩ = some .queryPll ∧
    decode ⟨0xDA020002#64, CallAction.get.bits, 0#64, 0#64⟩ = some .queryPll ∧
    ∀ user function, identifier user function ≠ 0xFF020002#64 := by
  refine ⟨by decide, by decide, fun user function h => ?_⟩
  have clear := getLsbD_identifier_of_spare user function (i := 24) (by decide)
  rw [h] at clear
  exact absurd clear (by decide)

end LowPower.Call
