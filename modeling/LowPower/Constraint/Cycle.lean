import LowPower.Constraint.Request
import LowPower.Sequencer

namespace LowPower.Constraint

def powerDownWord : Word := 0x4D50444E#32

def announce (map : Register.Map) (a : Announcement) (allows : Allowance) : Bus.Action Unit := do
  Bus.note (.announced a allows)
  Bus.write map.allowMailbox allows.bits
  Bus.write map.eventMailbox (a.word allows)

def entryAllows (c : Constraint) : Session.Kind → Allowance
  | .idle => c.allows
  | .suspend => c.allows ∪ .systemSuspend

/-- The flags of a session of a constraint. An idle session takes those of the constraint, and a
suspend session keeps its own unless its options ask for audio. -/
def sessionPcm (c : Constraint) (kind : Session.Kind) (options : SessionOptions)
    (own : PcmSettings) : PcmSettings :=
  match kind with
  | .idle => c.variant.idlePcm
  | .suspend => if options.contains SessionOptions.audioSuspend then SuspendFlavor.sleep.pcm else own

def prepare (c : Constraint) (session : Session) : Session :=
  let options := session.options ∪ c.options session.kind
  { session with
    options
    request := session.request ∪ c.keeps
    power.pcm := c.sessionPcm session.kind options session.power.pcm }

def enter (map : Register.Map) (votes : ResourceSet) (c : Constraint) (session : Session) :
    Sequencer.Action Session := do
  announce map .enter (c.entryAllows session.kind)
  if session.kind = .suspend then
    Bus.write map.powerDownMailbox powerDownWord
    Bus.emit .prepare
  let session := c.prepare session
  Bus.note (.entering c.name session.kind)
  Sequencer.arm map session votes
  return session

def traceOptions (c : Constraint) : Session.Kind → SessionOptions
  | .idle => if c.status.flags.contains ConstraintFlags.traceIdle then .traceLowPower else ∅
  | .suspend => .traceSuspend

def redeliveryDue (record : Wake.Record) (r : Redelivery) : Bool :=
  (record.event ||| record.rawStatus) &&& r.sources != 0#32

def redeliver (record : Wake.Record) : List Redelivery → Bus.Action Unit
  | [] => return ()
  | r :: rs => do
    if redeliveryDue record r then
      if r.reported then
        Bus.note (.redeliverySeen record)
        Bus.note (.redelivered r.interrupt r.sources)
      Bus.emit (.raise r.interrupt)
    redeliver record rs

def account (c : Constraint) (kind : Session.Kind) (record : Wake.Record) :
    Except Fault Constraint :=
  if kind = .idle ∧ c.status.flags.contains ConstraintFlags.residency then
    c.addResidency record.timer
  else .ok c

/-- Undoes the programming of a session and accounts for the wake. Only the options of the
session change if its core is not asleep. -/
def leave (map : Register.Map) (c : Constraint) (session : Session) :
    ExceptT Fault Sequencer.Action (Constraint × Session) := do
  let session := { session with options := session.options ∪ c.traceOptions session.kind }
  let some outcome ← Sequencer.disarm map session | return (c, session)
  -- A residency without room breaks off here: the wake was captured but is not announced.
  let c ← liftExcept (c.account session.kind outcome.record)
  if session.kind = .suspend then
    Bus.emit .finish
    Bus.write map.powerDownMailbox 0#32
  announce map .leave c.allows
  redeliver outcome.record c.variant.redeliveries
  return (c, { session with wake := some outcome })

def reportBlocked : List Constraint → Bus.Action Unit
  | [] => return ()
  | c :: cs => do
    if c.status.blocked ≠ 0#32 then
      Bus.note (.blocked c.name c.status.blocked c.status.latch)
    reportBlocked cs

def notices (request : Request) (c : Constraint) : List Notice :=
  match request.memoryFlag? with
  | some (flag, on) => if c.variant = .dram then [.flagPut c.name flag on] else []
  | none => []

def update (shape : Clock.Shape) (request : Request) (c : Constraint) :
    Bus.Action (Except Failure Constraint) := do
  Bus.noteAll (c.notices request)
  return c.apply shape request

end LowPower.Constraint
