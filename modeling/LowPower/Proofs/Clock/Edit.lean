import LowPower.Clock.Layout

namespace LowPower.Clock

/-- Every domain of a shape has a word in a table, and every PLL has a bit. -/
structure Shape.Fits (s : Shape) : Prop where
  domains : s.domains ≤ domainCapacity
  plls : s.plls ≤ 32

theorem Layout.Valid.fits {l : Layout} (h : l.Valid) : l.shape.Fits :=
  ⟨h.domains, Nat.le_trans (Nat.le_of_lt h.plls) (by decide)⟩

namespace Table

section

variable {shape : Shape} {entry : Nat} {value : Word} {on : Bool} {t t' : Table}

theorem edit_of_le (h : shape.domains + shape.plls ≤ entry) :
    t.edit shape entry value on = .ok none := by
  have notDomain : ¬ entry < shape.domains := by omega
  have notPll : ¬ entry - shape.domains < shape.plls := by omega
  rw [edit, if_neg notDomain, if_neg notPll]

theorem exists_edit (fits : shape.Fits) (h : entry < shape.domains + shape.plls) :
    ∃ t', t.edit shape entry value on = .ok (some t') := by
  rw [edit]
  split
  · next inDomains =>
    rw [dif_pos (Nat.lt_of_lt_of_le inDomains fits.domains)]
    exact ⟨_, rfl⟩
  · next notDomain =>
    have inPlls : entry - shape.domains < shape.plls := by omega
    have inWord := Nat.lt_of_lt_of_le inPlls fits.plls
    simp only [if_pos inPlls, if_pos inWord]
    exact ⟨_, rfl⟩

theorem edit_ne_error (fits : shape.Fits) (t : Table) (entry : Nat) (value : Word) (on : Bool)
    (fault : Fault) : t.edit shape entry value on ≠ .error fault := by
  by_cases h : entry < shape.domains + shape.plls
  · obtain ⟨t', edited⟩ := t.exists_edit fits h
    rw [edited]
    exact nofun
  · rw [edit_of_le (Nat.not_lt.mp h)]
    exact nofun

theorem edit_uniform (shape : Shape) (entry : Nat) (value : Word) (on : Bool) :
    (∀ t : Table, ∃ t', t.edit shape entry value on = .ok (some t')) ∨
    (∀ t : Table, t.edit shape entry value on = .ok none) ∨
    ∃ fault, ∀ t : Table, t.edit shape entry value on = .error fault := by
  by_cases inDomains : entry < shape.domains
  · by_cases inCapacity : entry < domainCapacity
    · left
      intro t
      rw [edit, if_pos inDomains, dif_pos inCapacity]
      exact ⟨_, rfl⟩
    · exact .inr (.inr ⟨_, fun t => by rw [edit, if_pos inDomains, dif_neg inCapacity]⟩)
  · by_cases inPlls : entry - shape.domains < shape.plls
    · by_cases inWord : entry - shape.domains < 32
      · left
        intro t
        simp only [edit, if_neg inDomains, if_pos inPlls, if_pos inWord]
        exact ⟨_, rfl⟩
      · exact .inr (.inr ⟨.shiftOverflow, fun t => by
          simp only [edit, if_neg inDomains, if_pos inPlls, if_neg inWord]⟩)
    · exact .inr (.inl fun t => by rw [edit, if_neg inDomains, if_neg inPlls])

theorem getLsbD_putBits (word bits : Word) (on : Bool) (k : Nat) :
    (putBits word bits on).getLsbD k = if bits.getLsbD k then on else word.getLsbD k := by
  cases on
  · change (word &&& ~~~bits).getLsbD k = _
    rw [BitVec.getLsbD_and, BitVec.getLsbD_not]
    by_cases hk : k < 32
    · cases bits.getLsbD k <;> simp [hk]
    · simp [Nat.not_lt.mp hk]
  · change (word ||| bits).getLsbD k = _
    rw [BitVec.getLsbD_or]
    cases bits.getLsbD k <;> simp

theorem edit_eq_some (h : t.edit shape entry value on = .ok (some t')) :
    (∀ i (hi : i < domainCapacity), t'.domains[i] =
      if entry = i ∧ i < shape.domains then putBits t.domains[i] value on else t.domains[i]) ∧
    ∀ k, t'.plls.getLsbD k =
      if entry = shape.domains + k ∧ value ≠ 0#32 then on else t.plls.getLsbD k := by
  rw [edit] at h
  split at h
  · next inDomains =>
    have notPll (k : Nat) : ¬ (entry = shape.domains + k ∧ value ≠ 0#32) := by omega
    split at h
    · cases h
      refine ⟨fun i hi => ?_, fun k => (if_neg (notPll k)).symm⟩
      rw [Vector.getElem_set]
      by_cases heq : entry = i
      · subst heq
        rw [if_pos rfl, if_pos ⟨rfl, inDomains⟩]
      · rw [if_neg heq, if_neg fun both => heq both.1]
    · cases h
  · next notDomain =>
    have notWord (i : Nat) : ¬ (entry = i ∧ i < shape.domains) := by omega
    split at h
    · dsimp only at h
      split at h
      · next inWord =>
        cases h
        refine ⟨fun i hi => (if_neg (notWord i)).symm, fun k => ?_⟩
        rw [getLsbD_putBits]
        by_cases hvalue : value = 0#32
        · simp [hvalue]
        · have heq : entry = shape.domains + k ↔ entry - shape.domains = k := by omega
          rw [if_neg hvalue, BitVec.getLsbD_twoPow]
          simp [inWord, heq, hvalue]
      · cases h
    · cases h

end

inductive Bit
  | domain (number : Fin domainCapacity) (k : Fin 32)
  | pll (number : Fin 32)
deriving DecidableEq

def bit (t : Table) : Bit → Bool
  | .domain i k => t.domains[i].getLsbD k
  | .pll k => t.plls.getLsbD k

theorem ext_bit {t u : Table} (h : ∀ b, t.bit b = u.bit b) : t = u := by
  apply Table.ext
  · apply Vector.ext
    intro i hi
    apply BitVec.eq_of_getLsbD_eq
    exact fun k hk => h (.domain ⟨i, hi⟩ ⟨k, hk⟩)
  · apply BitVec.eq_of_getLsbD_eq
    exact fun k hk => h (.pll ⟨k, hk⟩)

structure Edit where
  entry : Nat
  value : Word
  on : Bool
deriving DecidableEq

namespace Edit

def Placed (shape : Shape) (e : Edit) : Prop := e.entry < shape.domains + shape.plls

/-- Which bits an edit names. The bit of a PLL is named by any value but zero. -/
def Names (shape : Shape) (e : Edit) : Bit → Prop
  | .domain i k => e.entry = i ∧ i < shape.domains ∧ e.value.getLsbD k = true
  | .pll k => e.entry = shape.domains + k ∧ e.value ≠ 0#32

def Decides (shape : Shape) (e : Edit) (b : Bit) : Prop := e.Placed shape ∧ e.Names shape b

instance (shape : Shape) (e : Edit) : Decidable (e.Placed shape) :=
  inferInstanceAs (Decidable (_ < _))

instance (shape : Shape) (e : Edit) : (b : Bit) → Decidable (e.Names shape b)
  | .domain .. | .pll _ => inferInstanceAs (Decidable (_ ∧ _))

instance (shape : Shape) (e : Edit) (b : Bit) : Decidable (e.Decides shape b) :=
  inferInstanceAs (Decidable (_ ∧ _))

end Edit

def edited (shape : Shape) (t : Table) (e : Edit) : Table :=
  match t.edit shape e.entry e.value e.on with
  | .ok (some t) => t
  | _ => t

def editAll (shape : Shape) (es : List Edit) (t : Table) : Table := es.foldl (edited shape) t

/-- What the last edit which decides a bit makes of it, if there is one. -/
def decided (shape : Shape) (es : List Edit) (b : Bit) : Option Bool :=
  (es.filter (·.Decides shape b)).getLast?.map (·.on)

section

variable {shape : Shape} {e e' : Edit} {es es' : List Edit} {b : Bit} {t u : Table}

theorem bit_edit (h : t.edit shape e.entry e.value e.on = .ok (some u)) (b : Bit) :
    u.bit b = if e.Names shape b then e.on else t.bit b := by
  obtain ⟨words, plls⟩ := edit_eq_some h
  cases b with
  | domain i k =>
    change (u.domains[i.val]).getLsbD k = _
    rw [words i i.isLt]
    by_cases addressed : e.entry = i ∧ (i : Nat) < shape.domains
    · rw [if_pos addressed, getLsbD_putBits]
      simp only [Edit.Names, addressed, true_and]
      rfl
    · rw [if_neg addressed, if_neg fun names => addressed ⟨names.1, names.2.1⟩]
      rfl
  | pll k => exact plls k

theorem edited_of_not_placed (h : ¬ e.Placed shape) (t : Table) : t.edited shape e = t := by
  rw [edited, edit_of_le (Nat.not_lt.mp h)]

theorem bit_edited (fits : shape.Fits) (e : Edit) (t : Table) (b : Bit) :
    (t.edited shape e).bit b = if e.Decides shape b then e.on else t.bit b := by
  by_cases placed : e.Placed shape
  · obtain ⟨u, done⟩ : ∃ u, t.edit shape e.entry e.value e.on = .ok (some u) :=
      t.exists_edit fits placed
    simp only [edited, done, Edit.Decides, placed, true_and]
    exact bit_edit done b
  · rw [edited_of_not_placed placed, if_neg fun decides => placed decides.1]

theorem decided_cons (shape : Shape) (e : Edit) (es : List Edit) (b : Bit) :
    decided shape (e :: es) b =
      (decided shape es b).or (if e.Decides shape b then some e.on else none) := by
  rw [decided, decided, List.filter_cons]
  by_cases decides : e.Decides shape b
  · rw [if_pos (decide_eq_true decides), if_pos decides, List.getLast?_cons]
    cases (es.filter (·.Decides shape b)).getLast? <;> rfl
  · rw [if_neg (by simpa using decides), if_neg decides, Option.or_none]

theorem bit_editAll (fits : shape.Fits) (es : List Edit) (t : Table) (b : Bit) :
    (t.editAll shape es).bit b = (decided shape es b).getD (t.bit b) := by
  induction es generalizing t with
  | nil => rfl
  | cons e es ih =>
    change ((t.edited shape e).editAll shape es).bit b = _
    rw [ih, bit_edited fits, decided_cons]
    -- The first edit shows through where none of the later ones decides the bit.
    cases decided shape es b with
    | some on => rfl
    | none => split <;> rfl

example : editAll ⟨3, 2⟩ [⟨1, 0x30#32, true⟩, ⟨1, 0x10#32, false⟩, ⟨4, 7#32, true⟩, ⟨5, 1#32, true⟩]
    .empty = .ofList [0x0#32, 0x20#32] 0x2#32 := by
  decide

theorem editAll_eq (fits : shape.Fits) (h : ∀ b, decided shape es b = decided shape es' b)
    (t : Table) : t.editAll shape es = t.editAll shape es' :=
  ext_bit fun b => by rw [bit_editAll fits, bit_editAll fits, h]

def Bit.entry (shape : Shape) : Bit → Nat
  | .domain i _ => i
  | .pll k => shape.domains + k

theorem Edit.Decides.entry_eq (h : e.Decides shape b) : e.entry = b.entry shape := by
  obtain ⟨-, names⟩ := h
  cases b with
  | domain => exact names.1
  | pll => exact names.1

theorem decided_filter (shape : Shape) (es : List Edit) (b : Bit) :
    decided shape (es.filter (·.entry = b.entry shape)) b = decided shape es b := by
  rw [decided, List.filter_filter, decided]
  congr 3
  funext e
  rw [← Bool.decide_and, decide_eq_decide]
  exact and_iff_left_of_imp Edit.Decides.entry_eq

theorem editAll_congr (fits : shape.Fits)
    (h : ∀ n, es.filter (·.entry = n) = es'.filter (·.entry = n)) (t : Table) :
    t.editAll shape es = t.editAll shape es' :=
  editAll_eq fits (fun b => by rw [← decided_filter, h, decided_filter]) t

theorem editAll_comm (fits : shape.Fits) (h : e.entry ≠ e'.entry) (t : Table) :
    t.editAll shape [e, e'] = t.editAll shape [e', e] := by
  refine editAll_congr fits (fun n => ?_) t
  by_cases first : e.entry = n
  · have second : e'.entry ≠ n := fun second => h (first.trans second.symm)
    simp [first, second]
  · simp [List.filter_cons, first]

theorem editAll_self (fits : shape.Fits) (e : Edit) (t : Table) :
    t.editAll shape [e, e] = t.editAll shape [e] := by
  refine editAll_eq fits (fun b => ?_) t
  simp only [decided_cons]
  split <;> rfl

end

end Table

end LowPower.Clock
