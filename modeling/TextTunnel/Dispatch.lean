import TextTunnel.Packet.Basic
import TextTunnel.Text.Quoted

/-!
# Handlers

Packets that have been received go to the application's handlers, at most one for each variant. A
handler that fails gives a chain of reasons.

* `Dispatcher.register` -- replaces the handler of a variant.
* `Dispatcher.dispatch` -- runs the handler of a packet's variant.
-/

namespace TextTunnel

/-- Why a handler failed: what it reports, and the reasons behind that, the nearest first. -/
structure Failure where
  text : String
  causes : List String
  deriving DecidableEq, Repr

namespace Failure

/-- The report with all reasons behind it. -/
def chain (f : Failure) : String :=
  String.intercalate ": " (f.text :: f.causes)

/-- The failure whose reasons are listed from the innermost on. -/
def ofInnermost? (texts : List String) : Option Failure :=
  match texts.reverse with
  | [] => none
  | text :: causes => some ⟨text, causes⟩

end Failure

/-- What an application does with packets of one variant, under a name. -/
structure Handler where
  name : String
  run : Packet → Except Failure Unit

/-- The handlers, at most one for each variant. -/
structure Dispatcher where
  handlers : List (PacketKind × Handler)

namespace Dispatcher

/-- No handlers. -/
def empty : Dispatcher := ⟨[]⟩

/-- The handler of a variant. -/
def find (d : Dispatcher) (kind : PacketKind) : Option Handler :=
  (d.handlers.find? fun h => h.1 == kind).map (·.2)

/-- Whether a variant has a handler. -/
def hasHandler (d : Dispatcher) (kind : PacketKind) : Bool :=
  (d.find kind).isSome

/-- Installs a handler, and answers with the one it replaces. -/
def register (d : Dispatcher) (kind : PacketKind) (h : Handler) : Option Handler × Dispatcher :=
  (d.find kind, ⟨d.handlers.filter (fun h => h.1 != kind) ++ [(kind, h)]⟩)

/-- Runs the handler of a packet's variant; `none` if there is none. -/
def dispatch (d : Dispatcher) (p : Packet) : Option (Handler × Except Failure Unit) :=
  (d.find p.kind).map fun h => (h, h.run p)

/-- The names of the variants that have a handler, sorted. -/
def kindNames (d : Dispatcher) : List String :=
  (d.handlers.map fun h => h.1.name).mergeSort fun a b => a ≤ b

/-- The variants that have a handler, as text. -/
def debugText (d : Dispatcher) : String :=
  "PacketDispatcher \x7b handlers: [" ++ String.intercalate ", " (d.kindNames.map Text.quotedString)
    ++ "] \x7d"

end Dispatcher

end TextTunnel
