/-!
# Closing a connection

The side that owns a connection holds a handle, and everyone who works for the connection holds a
signal. Closing writes a value into a cell that all of them share, and giving the handle up counts
as closing. A signal remembers the version of the cell that it has seen, so that it can wait for a
newer one.

* `MailServer.Closing.Cell` is the shared cell and `MailServer.Closing.Signal` a signal.
* `MailServer.Closing.Signal.isClosed` asks, `MailServer.Closing.Signal.poll` waits.
* `MailServer.Closing.Party` is a cell with all signals on it and `MailServer.Closing.Party.perform`
  what can happen to them.
-/

namespace MailServer.Closing

/-! ## The shared cell -/

/-- What the handle and the signals share. -/
structure Cell where
  /-- Closing has been announced. -/
  announced : Bool
  /-- Counts the announcements. -/
  version : Nat
  /-- Somebody still holds the handle. -/
  held : Bool
deriving DecidableEq, Repr

namespace Cell

/-- The cell of a new connection. -/
def fresh : Cell := ⟨false, 0, true⟩

/-- Announces that the connection closes. Without the handle nothing can be announced. -/
def close (c : Cell) : Cell :=
  if c.held then { c with announced := true, version := c.version + 1 } else c

/-- Gives the handle up. -/
def release (c : Cell) : Cell := { c with held := false }

end Cell

/-! ## Signals -/

/-- A signal, with the version of the cell that it has seen. -/
structure Signal where
  seen : Nat
deriving DecidableEq, Repr

/-- What a signal learns when it waits for a change of the cell. -/
inductive Change where
  /-- The cell has a version that the signal had not seen. -/
  | newer
  /-- Nobody is left who could change the cell. -/
  | gone
  | pending
deriving DecidableEq, Repr

namespace Signal

/-- A signal on a cell, which has seen its version. -/
def subscribe (c : Cell) : Signal := ⟨c.version⟩

/-- The signal after it has looked at the cell. -/
def catchUp (s : Signal) (c : Cell) : Signal := { s with seen := c.version }

/-- What a wait for a change finds. An unseen version comes before the end of all changes. -/
def changed (s : Signal) (c : Cell) : Change :=
  if s.seen ≠ c.version then .newer else if c.held then .pending else .gone

/-- The connection has closed: it was announced, or it can no longer be announced. -/
def isClosed (_s : Signal) (c : Cell) : Bool := c.announced || !c.held

/-- Waits for the close as long as that takes no time: whether the wait is over, and the signal
after it. Each round looks at the value and then waits for a newer one. -/
def poll (s : Signal) (c : Cell) : Bool × Signal :=
  let s := s.catchUp c
  if c.announced then (true, s)
  else
    match _h : s.changed c with
    | .newer => s.poll c
    | .gone => (true, s)
    | .pending => (false, s)
termination_by 0
decreasing_by simp [s, changed, catchUp] at _h; split at _h <;> contradiction

end Signal

/-! ## Everything on one connection -/

/-- A cell with the signals on it, in the order in which they came about. -/
structure Party where
  cell : Cell
  signals : List Signal
deriving DecidableEq, Repr

/-- Something that the holder of the handle or of a signal does. -/
inductive Act where
  | close
  | release
  | subscribe
  | clone (signal : Nat)
  | isClosed (signal : Nat)
  | poll (signal : Nat)
deriving DecidableEq, Repr

/-- What an act answers. -/
inductive Answer where
  | nothing
  | signals (count : Nat)
  | closed (value : Bool)
  | resolved (value : Bool)
deriving DecidableEq, Repr

namespace Party

/-- A new connection, with the handle and one signal. -/
def start : Party := ⟨.fresh, [.subscribe .fresh]⟩

/-- The party with one signal more, and the number of signals then. -/
def join (p : Party) (s : Signal) : Answer × Party :=
  (.signals (p.signals.length + 1), { p with signals := p.signals ++ [s] })

/-- Does something. A signal that is not there cannot do anything, and without the handle there
are no new signals but copies. -/
def perform (p : Party) : Act → Answer × Party
  | .close => (.nothing, { p with cell := p.cell.close })
  | .release => (.nothing, { p with cell := p.cell.release })
  | .subscribe =>
    if p.cell.held then p.join (.subscribe p.cell) else (.signals p.signals.length, p)
  | .clone i =>
    match p.signals[i]? with
    | some s => p.join s
    | none => (.nothing, p)
  | .isClosed i =>
    match p.signals[i]? with
    | some s => (.closed (s.isClosed p.cell), p)
    | none => (.nothing, p)
  | .poll i =>
    match p.signals[i]? with
    | some s =>
      let (resolved, s) := s.poll p.cell
      (.resolved resolved, { p with signals := p.signals.set i s })
    | none => (.nothing, p)

end Party

end MailServer.Closing
