import LowPower.Proofs.Constraint.Request

namespace LowPower

open Bus (Event Script)
open Bus.Script (Shows)

theorem Announcement.word_and (a : Announcement) (allows : Allowance) :
    a.word allows &&& 0xFFFF0000#32 = a.tag := by
  have low : allows.bits &&& 0x0000FFFF#32 &&& 0xFFFF0000#32 = 0#32 := by
    rw [BitVec.and_assoc]
    exact BitVec.and_zero
  rw [word, BitVec.and_or_distrib_right, low, BitVec.or_zero]
  cases a with
  | enter => rfl
  | leave => rfl

def Announcement.ofWord? (x : Word) : Option Announcement :=
  if x &&& 0xFFFF0000#32 = enter.tag then some .enter
  else if x &&& 0xFFFF0000#32 = leave.tag then some .leave
  else none

theorem Announcement.ofWord?_word (a : Announcement) (allows : Allowance) :
    ofWord? (a.word allows) = some a := by
  rw [ofWord?, word_and]
  cases a with
  | enter => rfl
  | leave => rfl

inductive Signal
  | announced (a : Announcement)
  | prepared
  | finished
deriving DecidableEq

namespace Signal

def of? (map : Register.Map) : Event → Option Signal
  | .write a x => if a = map.eventMailbox then (Announcement.ofWord? x).map .announced else none
  | .prepare => some .prepared
  | .finish => some .finished
  | _ => none

def entering : Session.Kind → List Signal
  | .idle => [.announced .enter]
  | .suspend => [.announced .enter, .prepared]

def leaving : Session.Kind → List Signal
  | .idle => [.announced .leave]
  | .suspend => [.finished, .announced .leave]

variable {map : Register.Map}

theorem of?_of_isRead {e : Event} (h : e.IsRead) : of? map e = none := by
  cases e with
  | read => rfl
  | _ => exact h.elim

theorem of?_of_isRaise {e : Event} (h : e.IsRaise) : of? map e = none := by
  cases e with
  | raise => rfl
  | _ => exact h.elim

section

variable (distinct : map.Distinct)
include distinct

theorem of?_write_at {r : Register.Name} (h : r ≠ .eventMailbox) (x : Word) :
    of? map (.write (map.at r) x) = none :=
  if_neg fun heq => h (distinct.at_eq_iff.mp heq)

theorem shows_within (rs : List Register.Name) {s : Script} (hle : s ≤ .within map rs)
    (h : .eventMailbox ∉ rs) : Shows (of? map) s [] :=
  Shows.mono (.within (fun _ _ => rfl) fun _ hr x =>
    of?_write_at distinct (fun heq => h (heq ▸ hr)) x) hle

theorem shows_announced (a : Announcement) :
    Shows (of? map) (Constraint.announced map a) [.announced a] := by
  rintro es ⟨allows, hes⟩
  have told : Shows (of? map) (.store map.eventMailbox (a.word allows)) [.announced a] := by
    rintro _ rfl
    simp [of?, Announcement.ofWord?_word]
  exact (shows_within distinct [.allowMailbox] (Bus.Script.store_le_within .allowMailbox
    (by decide) _) (by decide)).mul told es hes

theorem shows_preparing (kind : Session.Kind) :
    Shows (of? map) (Constraint.preparing map kind)
      (if kind = .suspend then [.prepared] else []) := by
  refine .given fun _ => ?_
  have hidden := of?_write_at distinct (r := .powerDownMailbox) (by decide)
    Constraint.powerDownWord
  rintro _ rfl
  exact List.filterMap_cons_none hidden

theorem shows_finishing (kind : Session.Kind) :
    Shows (of? map) (Constraint.finishing map kind)
      (if kind = .suspend then [.finished] else []) := by
  refine .given fun _ => ?_
  have hidden := of?_write_at distinct (r := .powerDownMailbox) (by decide) 0#32
  rintro _ rfl
  exact congrArg (finished :: ·) (List.filterMap_cons_none hidden)

theorem shows_entering (kind : Session.Kind) :
    Shows (of? map) (Constraint.entering map kind) (entering kind) := by
  have programming := shows_within distinct Constraint.programmed le_rfl (by decide)
  have kicked := shows_within distinct _ (Sequencer.kicking_le kind) (by decide)
  have reported : Shows (of? map) (.only Event.IsRead) [] := .only fun _ => of?_of_isRead
  have all := (shows_announced distinct .enter).mul ((shows_preparing distinct kind).mul
    (programming.mul (kicked.mul reported)))
  cases kind with
  | idle => exact all
  | suspend => exact all

theorem shows_leaving (kind : Session.Kind) :
    Shows (of? map) (Constraint.leaving map kind) (leaving kind) := by
  have undone := shows_within distinct [.pcmControl, .crystal, .s1Control] le_rfl (by decide)
  have cleared := shows_within distinct [.externalClear]
    (Bus.Script.store_le_within .externalClear (by decide) 1#32) (by decide)
  have captured : Shows (of? map) (Constraint.captured map) [] := by
    rintro _ ⟨record, rfl⟩
    rfl
  have marked := shows_within distinct [.debugFlag] le_rfl (by decide)
  have raised : Shows (of? map) (.only Event.IsRaise) [] := .only fun _ => of?_of_isRaise
  have all := undone.mul (cleared.mul (captured.mul (marked.mul ((shows_finishing distinct kind).mul
    ((shows_announced distinct .leave).mul raised)))))
  cases kind with
  | idle => exact all
  | suspend => exact all

end

end Signal

theorem Constraint.shows_kick {map : Register.Map} (distinct : map.Distinct) (kind : Session.Kind) :
    Shows (Event.writtenTo? map.kick) (entering map kind) [1#32, 0#32] := by
  have announced : Shows (Event.writtenTo? map.kick) (announced map .enter) [] := by
    rintro es ⟨allows, hes⟩
    exact Shows.unwritten (r := .kick) distinct _ (announcing_le_within .enter allows) (by decide)
      es hes
  have programming := Shows.unwritten (r := .kick) distinct programmed le_rfl (by decide)
  have stopped : Shows (Event.writtenTo? map.kick) (.given (kind = .suspend)
      (Watchdog.switching map Watchdog.timerEnable false)) [] := .given_nil fun _ =>
    Shows.unwritten (r := .kick) distinct [.pcmControl]
      (Watchdog.switching_le_within (by decide) _ _) (by decide)
  have kicked := (Shows.store_at distinct .kick .kick 1#32).mul
    ((Shows.store_at distinct .kick .kick 0#32).mul stopped)
  exact announced.mul ((shows_preparing distinct kind (r := .kick) (by decide)).mul
    (programming.mul (kicked.mul (.reads _))))

end LowPower
