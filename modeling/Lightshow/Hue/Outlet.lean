/-
A light of a Hue bridge as the outside of playback.

Handles are opened through a connector and numbered in order; requests are answered by a network,
which is a function that keeps a state.  Pauses take no time here.

* `Hue.Outlet.answer` -- the answer to a question of playback, and the outlet after it.
-/
import Lightshow.Hue.Client
import Lightshow.Playback.Draws
import Lightshow.Playback.Question
import Lightshow.Playback.State

namespace Lightshow.Hue

/-- How requests are answered. -/
abbrev Network (σ : Type) := Request → σ → Outcome × σ

/-- A network that nothing gets through. -/
def silence : Network Unit := fun _ s => (.noReply, s)

/-- A light of a bridge, what playback was told, and what it reported. -/
structure Outlet (σ : Type) where
  connector : Connector
  network : σ
  /-- All handles that were opened, oldest first. -/
  handles : List Handle
  control : Control
  draws : Draws
  /-- Every report, newest first. -/
  reports : List Message

namespace Outlet

variable {σ : Type}

/-- An outlet that was not used. -/
def new (connector : Connector) (network : σ) : Outlet σ :=
  ⟨connector, network, [], .idle, .start [] 0, []⟩

/-- Opens a handle. -/
def connect (n : Network σ) (o : Outlet σ) : Except BulbError Nat × Outlet σ :=
  match o.connector.connect.run n o.network with
  | (.ok handle, network) =>
    (.ok o.handles.length, { o with network, handles := o.handles ++ [handle] })
  | (.error cause, network) => (.error cause, { o with network })

/-- Sends a call through a handle. -/
def perform (n : Network σ) (index : Nat) (c : Call) (o : Outlet σ) :
    Except BulbError c.Reply × Outlet σ :=
  let handle := o.handles.getD index o.connector.handle
  let ((result, handle), network) := ((Hue.perform c).run.run handle).run n o.network
  (result, { o with network, handles := o.handles.set index handle })

/-- The answer to a question of playback, and the outlet after it. -/
def answer (n : Network σ) : (q : Question) → Outlet σ → q.Answer × Outlet σ
  | .connect, o => o.connect n
  | .call index c, o => o.perform n index c
  | .pause .., o => ((), o)
  | .stopping, o => (o.control.stopping, o)
  | .nextScript, o =>
    let (script, control) := o.control.take
    (script, { o with control })
  | .roll limit positive, o =>
    let (offset, draws) := o.draws.below limit positive
    (offset, { o with draws })
  | .report m, o => ((), { o with reports := m :: o.reports })

end Outlet

end Lightshow.Hue
