import ClassAudit.Layout.Reading

/-!
# Sessions

A session reads one item after another from the same bytes.  The caller chooses every item when
the one before it is known, and may go on after a fault: the next item is read from where the
faulty one stopped.
-/

namespace ClassAudit

/-- What can be asked for next.  Where names have to be looked up, the pool is given. -/
inductive Step where
  /-- The first bytes of a class file. -/
  | header
  | uint8
  | uint16
  | uint32
  /-- The constant pool that a count announces. -/
  | pool (count : UInt16)
  | method (constants : Pool)
  | attribute (constants : Pool)
  /-- A number of attributes. -/
  | attributes (count : UInt16) (constants : Pool)

/-- What was read. -/
inductive Item where
  | bytes (found : Bytes)
  | number (found : Nat)
  | pool (found : Pool)
  | method (found : Method)
  | attribute (found : Attribute)
  | attributes (found : List Attribute)

namespace Step

/-- How a step reads its item. -/
def reader : Step → Reader Item
  | .header => .bytes <$> Reader.header
  | .uint8 => (.number ·.toNat) <$> Reader.uint8
  | .uint16 => (.number ·.toNat) <$> Reader.uint16
  | .uint32 => (.number ·.toNat) <$> Reader.uint32
  | .pool count => .pool <$> Pool.read count
  | .method constants => .method <$> Method.read constants
  | .attribute constants => .attribute <$> Attribute.read constants
  | .attributes count constants => .attributes <$> Attribute.readAll count constants

end Step

/-- Where a session stands. -/
structure Session where
  /-- The bytes that are left. -/
  rest : Bytes
  /-- The events of all steps so far, the first one in front. -/
  log : List Event

namespace Session

/-- The session at the front of some bytes. -/
def start (bytes : Bytes) : Session := ⟨bytes, []⟩

/-- Takes one step and goes to where it stopped, whatever its result is. -/
def take (session : Session) (step : Step) : Except Fault Item × Session :=
  let outcome := step.reader session.rest
  (outcome.result, ⟨outcome.rest, session.log ++ outcome.log⟩)

/-- Takes steps one after another and gives the result of each. -/
def takeAll (session : Session) : List Step → List (Except Fault Item) × Session
  | [] => ([], session)
  | step :: later =>
    let (result, next) := session.take step
    let (results, ending) := next.takeAll later
    (result :: results, ending)

@[simp] theorem takeAll_nil (session : Session) : session.takeAll [] = ([], session) := rfl

/-- Taking steps in two runs is taking them in one. -/
theorem takeAll_append (session : Session) (first second : List Step) :
    session.takeAll (first ++ second) =
      let front := session.takeAll first
      let back := front.2.takeAll second
      (front.1 ++ back.1, back.2) := by
  induction first generalizing session with
  | nil => rfl
  | cons step later ih => simp [takeAll, ih]

end Session

end ClassAudit
