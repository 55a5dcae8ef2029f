import Mathlib.Data.List.Basic
import TaskHandoff.Lib.Machine

/-! # Sessions of trusted devices

A relay session is established in steps: a claim of the registry's epoch, a read of the active pin,
and, behind the lookup of the owner, the registration. Revoking a pin commits first and closes the
pin's sessions afterwards. The registry keeps a fence for each pin and one epoch for all, so that a
session that read the pin before the commit is refused or closed, in either order. -/

namespace TaskHandoff.DeviceTrust

open Machine

/-! ## The registry -/

abbrev PinId := Nat

/-- Sessions are numbered by their establishment. -/
abbrev SessionId := Nat

/-- `TrustedDeviceSessionRegistry`: the live sessions with their pins, the highest revision closed
for a pin, and the epoch. -/
structure Registry where
  sessions : List (PinId × SessionId)
  closedPinRevisions : List (PinId × Nat)
  epoch : Nat
deriving DecidableEq

namespace Registry

def empty : Registry := ⟨[], [], 0⟩

variable (r : Registry)
variable (pin : PinId)

/-- `closedPinRevisions.get(pinId) ?? 0`. -/
def fence : Nat := (r.closedPinRevisions.lookup pin).getD 0

/-- Register a session, unless its claim or its pin has been closed. -/
def register (authorizationRevision claimEpoch : Nat) (session : SessionId) : Option Registry :=
  if claimEpoch ≠ r.epoch ∨ authorizationRevision ≤ r.fence pin then none
  else some { r with sessions := (pin, session) :: r.sessions }

def unregister (session : SessionId) : Registry :=
  { r with sessions := r.sessions.filter (·.2 ≠ session) }

/-- Raise the fence and drop the sessions of the pin, which are then closed. -/
def closePin (authorizationRevision : Nat) : Registry :=
  { r with
    closedPinRevisions := (pin, max (r.fence pin) authorizationRevision) :: r.closedPinRevisions
    sessions := r.sessions.filter (·.1 ≠ pin) }

def closeAll : Registry := { r with epoch := r.epoch + 1, sessions := [] }

/-- The sessions that closing a pin closes. -/
def ofPin : List SessionId :=
  (r.sessions.filter (·.1 = pin)).map (·.2)

theorem fence_closePin (pin other : PinId) (revision : Nat) :
    (r.closePin pin revision).fence other =
      if other = pin then max (r.fence pin) revision else r.fence other := by
  unfold fence closePin
  rw [List.lookup_cons]
  split
  next heq =>
    have hother : other = pin := by simpa using heq
    rw [if_pos hother]
    rfl
  next hne =>
    have hother : other ≠ pin := by simpa using hne
    rw [if_neg hother]

theorem fence_le_closePin (pin other : PinId) (revision : Nat) :
    r.fence other ≤ (r.closePin pin revision).fence other := by
  rw [fence_closePin]
  split
  next heq => exact heq ▸ Nat.le_max_left _ _
  · exact Nat.le_refl _

theorem register_cases {r r' : Registry} {pin : PinId} {revision claimEpoch : Nat}
    {session : SessionId} (h : r.register pin revision claimEpoch session = some r') :
    claimEpoch = r.epoch ∧ r.fence pin < revision ∧
      r' = { r with sessions := (pin, session) :: r.sessions } := by
  unfold register at h
  split at h
  · cases h
  rename_i hopen
  have hepoch : claimEpoch = r.epoch := by
    by_contra hne
    exact hopen (.inl hne)
  have hfence : r.fence pin < revision := by
    by_contra hle
    exact hopen (.inr (Nat.not_lt.mp hle))
  exact ⟨hepoch, hfence, (Option.some.inj h).symm⟩

end Registry

/-! ## Establishments and operations -/

/-- A pin row. A revoked pin is never made active again. -/
structure PinRow where
  authorizationRevision : Nat
  active : Bool
deriving DecidableEq

inductive Stage where
  /-- The claim is taken and the pin not read yet. -/
  | claimed
  /-- The pin was read as active, with this revision. -/
  | observed (pin : PinId) (authorizationRevision : Nat)
  | registered (pin : PinId)
  | ended
deriving DecidableEq

/-- A session on its way. Times are the numbers of steps before. -/
structure Establishment where
  claimEpoch : Nat
  claimedAt : Nat
  /-- The pin that the observation read as active. -/
  pin : Option PinId
  stage : Stage
  /-- The operation that closed the session, if one did. -/
  closedBy : Option Nat
deriving DecidableEq

/-- What an operation closes behind its commit. -/
inductive Closing where
  | pins (rows : List (PinId × Nat))
  | all
deriving DecidableEq

/-- An operation behind its commit, or behind the call of `closeAll`. `revoked` are the pins it
revoked and `remaining` what it still has to close. -/
structure Operation where
  revoked : List PinId
  everything : Bool
  committedAt : Nat
  remaining : Closing
  resolved : Bool
deriving DecidableEq

structure State where
  pins : List PinRow
  registry : Registry
  establishments : List Establishment
  operations : List Operation
  time : Nat
deriving DecidableEq

namespace State

def initial : State := ⟨[], .empty, [], [], 0⟩

def revokePin (pins : List PinRow) (pin : PinId) : List PinRow :=
  pins.modify pin fun row =>
    { row with authorizationRevision := row.authorizationRevision + 1, active := false }

variable (s : State)

def isActive (pin : PinId) : Bool := (s.pins[pin]?.map (·.active)).getD false

/-- The revision that `closePinSessions` is called with: that of the revoked row, or, for an
approval, that of the row it superseded. -/
def closingRevision (superseded : Bool) (pin : PinId) : Nat :=
  let current := (s.pins[pin]?.map (·.authorizationRevision)).getD 0
  if superseded then current else current + 1

/-- Revoke active pins in one transaction. -/
def revoke (superseded : Bool) (pins : List PinId) : State :=
  { s with
    pins := pins.foldl revokePin s.pins
    operations := s.operations ++
      [⟨pins, false, s.time, .pins (pins.map fun pin => (pin, s.closingRevision superseded pin)),
        false⟩] }

/-- A new pin is active from the end of its transaction on. -/
def addPin (authorizationRevision : Nat) : State :=
  { s with pins := s.pins ++ [⟨authorizationRevision, true⟩] }

inductive Action where
  | claim
  /-- `observeClient` of an establishment reads an active pin. -/
  | observe (session : SessionId) (pin : PinId)
  /-- `observeClient` revokes pins for reapproval; the establishment ends. -/
  | reapprove (session : SessionId) (pins : List PinId)
  /-- An administrator revokes a pin. -/
  | revokePin (pin : PinId)
  /-- An approval makes a pin, and supersedes one. -/
  | approve (previous : Option PinId) (authorizationRevision : Nat)
  /-- The roles changed. -/
  | closeAll
  /-- The owner is known: the session is registered and started, or refused. -/
  | register (session : SessionId)
  /-- The observation was another one, the lookup failed, or the socket closed. -/
  | finish (session : SessionId)
  /-- An operation goes on to close what is next, or resolves. -/
  | proceed (operation : Nat)

def put (session : SessionId) (e : Establishment) : State :=
  { s with establishments := s.establishments.set session e }

/-- End the sessions an operation closes. -/
def closeSessions (operation : Nat) (sessions : List SessionId) : State :=
  { s with establishments := s.establishments.mapIdx fun i e =>
      if i ∈ sessions then { e with stage := .ended, closedBy := some operation } else e }

/-- The next closing of an operation. `session.close` does its work in the call. -/
def proceed (operation : Nat) (o : Operation) : State :=
  let set (o' : Operation) (s : State) : State :=
    { s with operations := s.operations.set operation o' }
  match o.remaining with
  | .pins ((pin, revision) :: rest) =>
    set { o with remaining := .pins rest }
      { s.closeSessions operation (s.registry.ofPin pin) with
        registry := s.registry.closePin pin revision }
  | .pins [] => set { o with resolved := true } s
  | .all =>
    set { o with remaining := .pins [] }
      { s.closeSessions operation (s.registry.sessions.map (·.2)) with
        registry := s.registry.closeAll }

def act : Action → Option State
  | .claim =>
    some { s with
      establishments := s.establishments ++ [⟨s.registry.epoch, s.time, none, .claimed, none⟩] }
  | .observe session pin =>
    match s.establishments[session]?, s.pins[pin]? with
    | some e, some row =>
      if e.stage = .claimed ∧ row.active then
        some (s.put session
          { e with
            pin := some pin
            stage := .observed pin row.authorizationRevision })
      else none
    | _, _ => none
  | .reapprove session pins =>
    match s.establishments[session]? with
    | some e =>
      if e.stage = .claimed ∧ pins.Nodup ∧ pins.all s.isActive then
        some ((s.revoke false pins).put session { e with stage := .ended })
      else none
    | none => none
  | .revokePin pin => if s.isActive pin then some (s.revoke false [pin]) else none
  | .approve previous authorizationRevision =>
    if previous.all s.isActive then
      some ((s.revoke true previous.toList).addPin authorizationRevision)
    else none
  | .closeAll => some { s with operations := s.operations ++ [⟨[], true, s.time, .all, false⟩] }
  | .register session =>
    match s.establishments[session]? with
    | some e =>
      match e.stage with
      | .observed pin revision =>
        match s.registry.register pin revision e.claimEpoch session with
        | some registry =>
          some (({ s with registry } : State).put session { e with stage := .registered pin })
        | none => some (s.put session { e with stage := .ended })
      | _ => none
    | none => none
  | .finish session =>
    match s.establishments[session]? with
    | some e =>
      if e.stage = .ended then none
      else
        let left : State := { s with registry := s.registry.unregister session }
        some (left.put session { e with stage := .ended })
    | none => none
  | .proceed operation =>
    match s.operations[operation]? with
    | some o => if o.resolved then none else some (s.proceed operation o)
    | none => none

def step (a : Action) : Option State :=
  (s.act a).map fun s => { s with time := s.time + 1 }

end State

end TaskHandoff.DeviceTrust
