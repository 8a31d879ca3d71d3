import Slipstream.GCMDTypes
import Slipstream.RunHistory
import Slipstream.UniqueHandles

/-!
# The descriptors of the connections

A `ClientConnection` or a `ServerConnection` holds a descriptor of the
process.  Its destructor closes it; moving from it leaves `-1` behind, on
which `close` fails without harm.  The system numbers descriptors anew from
the lowest free number, so that closing one twice would close another one's.

A constructor that throws leaves no object, and its destructor does not run:
what it has opened by then stays open.  A connection may also adopt a
descriptor that the program has from elsewhere; it closes it as its own, so
that no other connection may hold it.
-/

namespace Slipstream

inductive ConnectionClass where
  | client
  | server
  deriving DecidableEq

/-- Both classes have the descriptor as their only member. -/
structure ConnectionObject where
  kind : ConnectionClass
  fd : ℤ
  deriving DecidableEq

/-- The open descriptors of the process, the objects that are alive, the
number of results of `getaddrinfo` that were not freed, and the calls of
`close` with their success. -/
structure ConnectionState (Name : Type) where
  descriptors : Finset ℕ
  objects : Name → Option ConnectionObject
  addressLists : ℕ
  closed : List (ℤ × Bool)

/-- What `accept` sets `errno` to. -/
inductive AcceptError where
  | interrupted
  | other (strerror : String)

namespace ConnectionState

variable {Name : Type}

/-- No connection has been constructed. -/
def initial (descriptors : Finset ℕ) : ConnectionState Name where
  descriptors := descriptors
  objects _ := none
  addressLists := 0
  closed := []

/-! ## System calls -/

/-- A new descriptor is the lowest number that is not in use. -/
def newDescriptor (state : ConnectionState Name) : ℕ :=
  Nat.find (Infinite.exists_notMem_finset state.descriptors)

theorem newDescriptor_eq_iff {state : ConnectionState Name}
    {descriptor : ℕ} :
    state.newDescriptor = descriptor ↔
      descriptor ∉ state.descriptors ∧
        ∀ lower < descriptor, lower ∈ state.descriptors := by
  simp [newDescriptor, Nat.find_eq_iff]

theorem newDescriptor_notMem (state : ConnectionState Name) :
    state.newDescriptor ∉ state.descriptors :=
  (newDescriptor_eq_iff.mp rfl).1

def openDescriptor (state : ConnectionState Name) : ConnectionState Name :=
  { state with
    descriptors := insert state.newDescriptor state.descriptors }

def socket (state : ConnectionState Name) (succeeds : Bool) :
    ℤ × ConnectionState Name :=
  if succeeds then (state.newDescriptor, state.openDescriptor)
  else (-1, state)

def close (state : ConnectionState Name) (fd : ℤ) : ConnectionState Name :=
  if 0 ≤ fd ∧ fd.toNat ∈ state.descriptors then
    { state with
      descriptors := state.descriptors.erase fd.toNat
      closed := state.closed ++ [(fd, true)] }
  else { state with closed := state.closed ++ [(fd, false)] }

@[simp] theorem objects_close (state : ConnectionState Name) (fd : ℤ) :
    (state.close fd).objects = state.objects := by
  unfold close
  split <;> rfl

@[simp] theorem addressLists_close (state : ConnectionState Name) (fd : ℤ) :
    (state.close fd).addressLists = state.addressLists := by
  unfold close
  split <;> rfl

def getaddrinfo (state : ConnectionState Name) : ConnectionState Name :=
  { state with addressLists := state.addressLists + 1 }

def freeaddrinfo (state : ConnectionState Name) : ConnectionState Name :=
  { state with addressLists := state.addressLists - 1 }

/-- The loop in `ServerConnection::accept`.  It goes on as long as signals
interrupt the call, and has no result while there is no other answer. -/
def acceptLoop : List (Except AcceptError Unit) → Option (Except String Unit)
  | [] => none
  | .error .interrupted :: later => acceptLoop later
  | .error (.other strerror) :: _ => some (.error strerror)
  | .ok () :: _ => some (.ok ())

/-! ## Member functions -/

section Members

variable [DecidableEq Name]

def place (state : ConnectionState Name) (name : Name)
    (object : ConnectionObject) : ConnectionState Name :=
  { state with objects := Function.update state.objects name (some object) }

/-- `ClientConnection(ip, port)`.  The result of `getaddrinfo` is not freed
when `socket` fails. -/
def clientConnection (state : ConnectionState Name) (name : Name)
    (status : Except String Unit) (created connected : Bool) :
    Outcome (ConnectionState Name) Unit :=
  match status with
  | .error text =>
      (.error (.runtimeError ("getaddrinfo failed: " ++ text)), state)
  | .ok () =>
      let (fd, state) := state.getaddrinfo.socket created
      if fd = -1 then
        (.error (.logicError " Error, cannot create socket"), state)
      else
        let state := state.freeaddrinfo
        if connected then (.ok (), state.place name ⟨.client, fd⟩)
        else (.error (.runtimeError "Could not connect to server"), state)

/-- `ServerConnection(ip, port)`. -/
def serverConnection (state : ConnectionState Name) (name : Name)
    (status : Except String Unit) (created : Bool)
    (bound listening : Except String Unit) :
    Outcome (ConnectionState Name) Unit :=
  match status with
  | .error text =>
      (.error (.runtimeError ("getaddrinfo failed: " ++ text)), state)
  | .ok () =>
      let (fd, state) := state.getaddrinfo.socket created
      if fd = -1 then
        (.error (.logicError "Error, cannot create socket"),
          state.freeaddrinfo)
      else
        let state := state.freeaddrinfo
        match bound, listening with
        | .error strerror, _ =>
            (.error (.runtimeError ("bind failed: " ++ strerror)), state)
        | .ok (), .error strerror =>
            (.error (.runtimeError ("listen failed: " ++ strerror)), state)
        | .ok (), .ok () => (.ok (), state.place name ⟨.server, fd⟩)

/-- `ClientConnection(fd)`. -/
def clientConnectionOfFd (state : ConnectionState Name) (name : Name)
    (fd : ℤ) : ConnectionState Name :=
  state.place name ⟨.client, fd⟩

/-- `ServerConnection::accept`, whose result is constructed as `name`. -/
def accept (state : ConnectionState Name) (name : Name)
    (answers : List (Except AcceptError Unit)) :
    Option (Outcome (ConnectionState Name) Unit) :=
  match acceptLoop answers with
  | none => none
  | some (.error strerror) =>
      some (.error (.runtimeError ("accept failed: " ++ strerror)), state)
  | some (.ok ()) =>
      some (.ok (), state.openDescriptor.clientConnectionOfFd name
        state.newDescriptor)

def free (state : ConnectionState Name) (object : ConnectionObject) :
    ConnectionState Name :=
  state.close object.fd

/-- `target` takes the descriptor of `source`, which keeps `-1`. -/
def moveFrom (state : ConnectionState Name) (target source : Name)
    (other : ConnectionObject) : ConnectionState Name :=
  (state.place target other).place source { other with fd := -1 }

def moveAssign (state : ConnectionState Name) (target source : Name)
    (object other : ConnectionObject) : ConnectionState Name :=
  if target ≠ source then (state.free object).moveFrom target source other
  else state

/-- The destructor. -/
def destroy (state : ConnectionState Name) (name : Name)
    (object : ConnectionObject) : ConnectionState Name :=
  let state := state.free object
  { state with objects := Function.update state.objects name none }

/-- Assigning is destroying the target and moving to its place. -/
theorem moveFrom_free (state : ConnectionState Name) (target source : Name)
    (object other : ConnectionObject) :
    (state.free object).moveFrom target source other =
      (state.destroy target object).moveFrom target source other := by
  simp only [moveFrom, destroy, place,
    Function.update_idem]

end Members

/-! ## Programs -/

/-- What a program does with its connections, with the answers of the
system. -/
inductive Call (Name : Type) where
  | clientConnection (name : Name) (status : Except String Unit)
      (created connected : Bool)
  | clientConnectionOfFd (name : Name) (fd : ℤ)
  | serverConnection (name : Name) (status : Except String Unit)
      (created : Bool) (bound listening : Except String Unit)
  | accept (listener name : Name) (answers : List (Except AcceptError Unit))
  | moveConstruct (target source : Name)
  | moveAssign (target source : Name)
  | destroy (name : Name)

/-- What a call does to the resources that no object holds.  A constructor
that throws may leave behind a descriptor or a result of `getaddrinfo`. -/
inductive Change where
  | lost (descriptor : ℕ)
  | addressList
  | adopted (descriptor : ℕ)
  deriving DecidableEq

def Change.unheld (before : Finset ℕ) : Change → Finset ℕ
  | .lost descriptor => insert descriptor before
  | .addressList => before
  | .adopted descriptor => before.erase descriptor

section Programs

variable [DecidableEq Name]

/-- A constructor makes an object where there is none; the other calls are
on objects that are alive, and assignment is between objects of one class.
A call that is not of this kind is not made. -/
def call (state : ConnectionState Name) : Call Name → ConnectionState Name
  | .clientConnection name status created connected =>
      match state.objects name with
      | none => (state.clientConnection name status created connected).2
      | some _ => state
  | .clientConnectionOfFd name fd =>
      match state.objects name with
      | none => state.clientConnectionOfFd name fd
      | some _ => state
  | .serverConnection name status created bound listening =>
      match state.objects name with
      | none => (state.serverConnection name status created bound listening).2
      | some _ => state
  | .accept listener name answers =>
      match state.objects listener, state.objects name with
      | some ⟨.server, _⟩, none =>
          match state.accept name answers with
          | none => state
          | some outcome => outcome.2
      | _, _ => state
  | .moveConstruct target source =>
      match state.objects target, state.objects source with
      | none, some other => state.moveFrom target source other
      | _, _ => state
  | .moveAssign target source =>
      match state.objects target, state.objects source with
      | some object, some other =>
          if object.kind = other.kind then
            state.moveAssign target source object other
          else state
      | _, _ => state
  | .destroy name =>
      match state.objects name with
      | none => state
      | some object => state.destroy name object

/-- The result of `getaddrinfo` when `socket` fails, and the descriptor when
`connect` does. -/
def clientConnectionChange (state : ConnectionState Name)
    (status : Except String Unit) (created connected : Bool) :
    Option Change :=
  match status, created, connected with
  | .ok (), false, _ => some .addressList
  | .ok (), true, false => some (.lost state.newDescriptor)
  | _, _, _ => none

/-- The descriptor when `bind` or `listen` fails. -/
def serverConnectionChange (state : ConnectionState Name)
    (status : Except String Unit) (created : Bool)
    (bound listening : Except String Unit) : Option Change :=
  match status, created, bound, listening with
  | .ok (), true, .error _, _ => some (.lost state.newDescriptor)
  | .ok (), true, .ok (), .error _ => some (.lost state.newDescriptor)
  | _, _, _, _ => none

def change (state : ConnectionState Name) : Call Name → Option Change
  | .clientConnection name status created connected =>
      match state.objects name with
      | none => state.clientConnectionChange status created connected
      | some _ => none
  | .clientConnectionOfFd name fd =>
      match state.objects name with
      | none => if fd = -1 then none else some (.adopted fd.toNat)
      | some _ => none
  | .serverConnection name status created bound listening =>
      match state.objects name with
      | none => state.serverConnectionChange status created bound listening
      | some _ => none
  | _ => none

def step (state : ConnectionState Name) (next : Call Name) :
    ConnectionState Name × Option Change :=
  (state.call next, state.change next)

def after (descriptors : Finset ℕ) (calls : List (Call Name)) :
    ConnectionState Name :=
  RunHistory.exec step (initial descriptors) calls

def changes (descriptors : Finset ℕ) (calls : List (Call Name)) :
    List Change :=
  (RunHistory.outputs step (initial descriptors) calls).reduceOption

/-- The descriptors that were open before or lost, and not adopted since. -/
def unheld (descriptors : Finset ℕ) (calls : List (Call Name)) : Finset ℕ :=
  (changes descriptors calls).foldl Change.unheld descriptors

/-- The constructor that takes a descriptor is given an open one that no
object holds, or `-1`. -/
def Permitted (state : ConnectionState Name) : Call Name → Prop
  | .clientConnectionOfFd _ fd =>
      fd = -1 ∨ ((∃ descriptor ∈ state.descriptors, fd = descriptor) ∧
        ∀ name object, state.objects name = some object → object.fd ≠ fd)
  | _ => True

def AllPermitted (descriptors : Finset ℕ) (calls : List (Call Name)) :
    Prop :=
  ∀ before next, before ++ [next] <+: calls →
    (after descriptors before).Permitted next

end Programs

/-! ## Descriptors and their holders -/

/-- The descriptor that an object will close. -/
def holds (object : ConnectionObject) : Option ℕ :=
  if object.fd = -1 then none else some object.fd.toNat

theorem holds_eq_some_iff {object : ConnectionObject}
    (hnumbered : -1 ≤ object.fd) {descriptor : ℕ} :
    holds object = some descriptor ↔ object.fd = descriptor := by
  unfold holds
  split
  next hmoved =>
    simp only [reduceCtorEq, false_iff]
    omega
  next hmoved =>
    rw [Option.some.injEq]
    omega

/-- The state of the program as a table of handles: an object that was moved
from holds none. -/
structure Represents (state : ConnectionState Name) (unheld : Finset ℕ)
    (table : HandleTable Name ℕ) : Prop where
  opened : ∀ descriptor,
    descriptor ∈ table.opened ↔ descriptor ∈ state.descriptors
  held : ∀ name, table.held name = (state.objects name).bind holds
  numbered : ∀ {name object}, state.objects name = some object →
    -1 ≤ object.fd
  loose : table.loose = ↑unheld
  closed : ∀ entry ∈ state.closed, entry.2 = false → entry.1 = -1

theorem initial_represents (descriptors : Finset ℕ) :
    Represents (initial descriptors : ConnectionState Name) descriptors
      (.unowned descriptors) where
  opened _ := Iff.rfl
  held _ := rfl
  numbered hobject := nomatch hobject
  loose := HandleTable.loose_unowned _
  closed _ hentry := nomatch hentry

section Represents

variable {state : ConnectionState Name} {unheld : Finset ℕ}
  {table : HandleTable Name ℕ} (hrepresents : Represents state unheld table)
include hrepresents

theorem Represents.held_iff {name : Name} {descriptor : ℕ} :
    table.held name = some descriptor ↔
      ∃ object, state.objects name = some object ∧
        object.fd = descriptor := by
  rw [hrepresents.held, Option.bind_eq_some_iff]
  apply exists_congr
  intro object
  apply and_congr_right
  intro hobject
  exact holds_eq_some_iff (hrepresents.numbered hobject)

theorem Represents.newDescriptor_notMem :
    state.newDescriptor ∉ table.opened := by
  rw [hrepresents.opened]
  exact state.newDescriptor_notMem

theorem Represents.newDescriptor_notMem_unheld :
    state.newDescriptor ∉ unheld := by
  intro hunheld
  have hloose : state.newDescriptor ∈ table.loose := by
    rw [hrepresents.loose]
    exact hunheld
  exact hrepresents.newDescriptor_notMem hloose.1

theorem Represents.openDescriptor :
    Represents state.openDescriptor (insert state.newDescriptor unheld)
      (table.add state.newDescriptor) where
  opened descriptor := by
    rw [ConnectionState.openDescriptor, Finset.mem_insert,
      ← hrepresents.opened]
    exact Iff.rfl
  held := hrepresents.held
  numbered := hrepresents.numbered
  loose := by
    rw [HandleTable.loose_add hrepresents.newDescriptor_notMem,
      hrepresents.loose, Finset.coe_insert]
  closed := hrepresents.closed

theorem Represents.holds_opened {name : Name} {object : ConnectionObject}
    (hobject : state.objects name = some object) {descriptor : ℕ}
    (hholds : holds object = some descriptor) :
    descriptor ∈ state.descriptors := by
  have hheld : table.held name = some descriptor := by
    rw [hrepresents.held, hobject]
    exact hholds
  rw [← hrepresents.opened]
  exact table.held_opened hheld

variable [DecidableEq Name]

/-- A new object holds a descriptor that no object has held. -/
theorem Represents.adopt {name : Name} (hnone : state.objects name = none)
    (kind : ConnectionClass) {descriptor : ℕ}
    (hloose : descriptor ∈ table.loose) :
    Represents (state.place name ⟨kind, descriptor⟩)
      (unheld.erase descriptor) (table.adopt name descriptor hloose) where
  opened := hrepresents.opened
  held other := by
    simp only [HandleTable.adopt, place, Function.update_apply]
    split
    next => simp [holds]
    next => exact hrepresents.held other
  numbered {other object} hobject := by
    simp only [place, Function.update_apply] at hobject
    split at hobject
    next =>
      cases hobject
      dsimp only
      omega
    next => exact hrepresents.numbered hobject
  loose := by
    have hempty : table.held name = none := by
      rw [hrepresents.held, hnone]
      rfl
    rw [HandleTable.loose_adopt hloose hempty, hrepresents.loose,
      Finset.coe_erase]
  closed := hrepresents.closed

/-- A new object is made from `-1`. -/
theorem Represents.place_moved {name : Name}
    (hnone : state.objects name = none) (kind : ConnectionClass) :
    Represents (state.place name ⟨kind, -1⟩) unheld table where
  opened := hrepresents.opened
  held other := by
    rw [hrepresents.held]
    simp only [place, Function.update_apply]
    split
    next hsame => rw [hsame, hnone]; rfl
    next => rfl
  numbered {other object} hobject := by
    simp only [place, Function.update_apply] at hobject
    split at hobject
    next =>
      cases hobject
      exact le_refl _
    next => exact hrepresents.numbered hobject
  loose := hrepresents.loose
  closed := hrepresents.closed

/-- The descriptor of an object that is alive is open, so that `close` fails
only on `-1`. -/
theorem Represents.close {name : Name} {object : ConnectionObject}
    (hobject : state.objects name = some object) :
    (∀ descriptor, descriptor ∈ (table.close name).opened ↔
        descriptor ∈ (state.close object.fd).descriptors) ∧
      ∀ entry ∈ (state.close object.fd).closed,
        entry.2 = false → entry.1 = -1 := by
  have hnumbered := hrepresents.numbered hobject
  have hheld := hrepresents.held name
  rw [hobject, Option.bind_some, holds] at hheld
  simp only [HandleTable.close, hheld]
  by_cases hmoved : object.fd = -1
  · have hfails : ¬ (0 ≤ object.fd ∧ object.fd.toNat ∈ state.descriptors) :=
      by omega
    rw [ConnectionState.close, if_neg hfails, if_pos hmoved]
    constructor
    · intro descriptor
      simpa using hrepresents.opened descriptor
    · intro entry hentry
      rw [List.mem_append, List.mem_singleton] at hentry
      rcases hentry with hearlier | rfl
      · exact hrepresents.closed entry hearlier
      · exact fun _ => hmoved
  · have hopened := hrepresents.holds_opened hobject (if_neg hmoved)
    have hcloses : 0 ≤ object.fd ∧ object.fd.toNat ∈ state.descriptors :=
      ⟨by omega, hopened⟩
    rw [ConnectionState.close, if_pos hcloses, if_neg hmoved]
    constructor
    · intro descriptor
      rw [Finset.mem_erase, ← hrepresents.opened]
      simp [and_comm, eq_comm]
    · intro entry hentry
      rw [List.mem_append, List.mem_singleton] at hentry
      rcases hentry with hearlier | rfl
      · exact hrepresents.closed entry hearlier
      · simp

theorem Represents.destroy {name : Name} {object : ConnectionObject}
    (hobject : state.objects name = some object) :
    Represents (state.destroy name object) unheld (table.close name) where
  opened := (hrepresents.close hobject).1
  held other := by
    simp only [HandleTable.close, ConnectionState.destroy, free,
      objects_close, Function.update_apply]
    split
    next => rfl
    next => exact hrepresents.held other
  numbered {other found} hfound := by
    simp only [ConnectionState.destroy, free, objects_close,
      Function.update_apply] at hfound
    split at hfound
    next => contradiction
    next => exact hrepresents.numbered hfound
  loose := (HandleTable.loose_close name).trans hrepresents.loose
  closed := (hrepresents.close hobject).2

theorem Represents.moveFrom {target source : Name} {other : ConnectionObject}
    (htarget : state.objects target = none)
    (hsource : state.objects source = some other) :
    Represents (state.moveFrom target source other) unheld
      (table.exchange target source) where
  opened := hrepresents.opened
  held name := by
    simp only [HandleTable.exchange, ConnectionState.moveFrom, place,
      Function.update_apply, Equiv.swap_apply_def]
    rw [hrepresents.held]
    by_cases htaken : name = target
    · have hne : name ≠ source := by
        rintro rfl
        rw [← htaken, hsource] at htarget
        contradiction
      rw [if_pos htaken, if_neg hne, if_pos htaken, hsource]
    · rw [if_neg htaken]
      split
      next => rw [htarget]; rfl
      next => rfl
  numbered {name object} hobject := by
    simp only [ConnectionState.moveFrom, place, Function.update_apply]
      at hobject
    split_ifs at hobject
    · cases hobject
      exact le_refl _
    · cases hobject
      exact hrepresents.numbered hsource
    · exact hrepresents.numbered hobject
  loose :=
    (HandleTable.loose_exchange target source).trans hrepresents.loose
  closed := hrepresents.closed

end Represents

/-! ## Calls -/

/-- Every descriptor is one of the unheld ones or has one holder. -/
def Tracked (state : ConnectionState Name) (unheld : Finset ℕ) : Prop :=
  ∃ table, Represents state unheld table

section Tracked

variable {state : ConnectionState Name} {unheld : Finset ℕ}
  {table : HandleTable Name ℕ} (hrepresents : Represents state unheld table)

theorem Tracked.addressLists (htracked : Tracked state unheld)
    (count : ℕ) : Tracked { state with addressLists := count } unheld := by
  rcases htracked with ⟨table, hrepresents⟩
  exact ⟨table, hrepresents.opened, hrepresents.held, hrepresents.numbered,
    hrepresents.loose, hrepresents.closed⟩

include hrepresents

/-- A constructor throws behind `socket`. -/
theorem Represents.loses :
    Tracked state.openDescriptor (insert state.newDescriptor unheld) :=
  ⟨_, hrepresents.openDescriptor⟩

variable [DecidableEq Name]

/-- A constructor opens a descriptor and returns. -/
theorem Represents.opens {name : Name} (hnone : state.objects name = none)
    (kind : ConnectionClass) :
    Tracked (state.openDescriptor.place name ⟨kind, state.newDescriptor⟩)
      unheld := by
  have hopened := hrepresents.openDescriptor
  have hloose : state.newDescriptor ∈
      (table.add state.newDescriptor).loose := by
    rw [hopened.loose]
    exact Finset.mem_insert_self _ unheld
  have hadopted := hopened.adopt hnone kind hloose
  rw [Finset.erase_insert hrepresents.newDescriptor_notMem_unheld] at hadopted
  exact ⟨_, hadopted⟩

theorem Represents.clientConnection {name : Name}
    (hnone : state.objects name = none) (status : Except String Unit)
    (created connected : Bool) :
    Tracked (state.clientConnection name status created connected).2
      ((state.clientConnectionChange status created connected).toList.foldl
        Change.unheld unheld) := by
  have hsame : Tracked state unheld := ⟨table, hrepresents⟩
  cases status with
  | error text => exact hsame
  | ok _ =>
      cases created with
      | false => exact hsame.addressLists _
      | true =>
          cases connected with
          | false => exact hrepresents.loses.addressLists _
          | true => exact (hrepresents.opens hnone _).addressLists _

theorem Represents.serverConnection {name : Name}
    (hnone : state.objects name = none) (status : Except String Unit)
    (created : Bool) (bound listening : Except String Unit) :
    Tracked (state.serverConnection name status created bound listening).2
      ((state.serverConnectionChange status created bound
        listening).toList.foldl Change.unheld unheld) := by
  have hsame : Tracked state unheld := ⟨table, hrepresents⟩
  cases status with
  | error text => exact hsame
  | ok _ =>
      cases created with
      | false => exact hsame.addressLists _
      | true =>
          cases bound with
          | error strerror => exact hrepresents.loses.addressLists _
          | ok _ =>
              cases listening with
              | error strerror => exact hrepresents.loses.addressLists _
              | ok _ => exact (hrepresents.opens hnone _).addressLists _

/-- The caller of the constructor gives up its descriptor. -/
theorem Represents.clientConnectionOfFd {name : Name}
    (hnone : state.objects name = none) {fd : ℤ}
    (hpermitted : state.Permitted (.clientConnectionOfFd name fd)) :
    Tracked (state.clientConnectionOfFd name fd)
      ((if fd = -1 then none else some (Change.adopted fd.toNat)).toList.foldl
        Change.unheld unheld) := by
  rcases hpermitted with rfl | ⟨⟨descriptor, hopen, rfl⟩, hunheld⟩
  · exact ⟨table, hrepresents.place_moved hnone .client⟩
  · have hloose : descriptor ∈ table.loose := by
      refine ⟨(hrepresents.opened descriptor).mpr hopen, fun owner hheld => ?_⟩
      obtain ⟨object, hobject, hfd⟩ := hrepresents.held_iff.mp hheld
      exact hunheld owner object hobject hfd
    rw [if_neg (by omega), Int.toNat_natCast]
    exact ⟨_, hrepresents.adopt hnone .client hloose⟩

theorem Represents.accept {name : Name} (hnone : state.objects name = none)
    {answers : List (Except AcceptError Unit)}
    {outcome : Outcome (ConnectionState Name) Unit}
    (haccept : state.accept name answers = some outcome) :
    Tracked outcome.2 unheld := by
  unfold ConnectionState.accept at haccept
  split at haccept
  next => contradiction
  next =>
    cases haccept
    exact ⟨table, hrepresents⟩
  next =>
    cases haccept
    exact hrepresents.opens hnone .client

theorem Represents.moveAssign {target source : Name}
    {object other : ConnectionObject}
    (htarget : state.objects target = some object)
    (hsource : state.objects source = some other) :
    Tracked (state.moveAssign target source object other) unheld := by
  unfold ConnectionState.moveAssign
  split
  next hne =>
    have hcleared : (state.destroy target object).objects target = none := by
      simp [ConnectionState.destroy]
    have hother :
        (state.destroy target object).objects source = some other := by
      simp [ConnectionState.destroy, free, Ne.symm hne, hsource]
    have hdestroyed := hrepresents.destroy htarget
    rw [moveFrom_free]
    exact ⟨_, hdestroyed.moveFrom hcleared hother⟩
  next => exact ⟨table, hrepresents⟩

/-- A call keeps every descriptor with its holder, but for those that it
loses or adopts. -/
theorem Represents.call {next : Call Name}
    (hpermitted : state.Permitted next) :
    Tracked (state.call next)
      ((state.change next).toList.foldl Change.unheld unheld) := by
  have hsame : Tracked state unheld := ⟨table, hrepresents⟩
  cases next with
  | clientConnection name status created connected =>
      cases hname : state.objects name with
      | none =>
          simp only [ConnectionState.call, change, hname]
          exact hrepresents.clientConnection hname status created connected
      | some object =>
          simp only [ConnectionState.call, change, hname]
          exact hsame
  | clientConnectionOfFd name fd =>
      cases hname : state.objects name with
      | none =>
          simp only [ConnectionState.call, change, hname]
          exact hrepresents.clientConnectionOfFd hname hpermitted
      | some object =>
          simp only [ConnectionState.call, change, hname]
          exact hsame
  | serverConnection name status created bound listening =>
      cases hname : state.objects name with
      | none =>
          simp only [ConnectionState.call, change, hname]
          exact hrepresents.serverConnection hname status created bound
            listening
      | some object =>
          simp only [ConnectionState.call, change, hname]
          exact hsame
  | accept listener name answers =>
      simp only [ConnectionState.call, change]
      split
      next fd _ hname =>
        split
        next => exact hsame
        next outcome haccept => exact hrepresents.accept hname haccept
      next => exact hsame
  | moveConstruct target source =>
      simp only [ConnectionState.call, change]
      split
      next other htarget hsource =>
        exact ⟨_, hrepresents.moveFrom htarget hsource⟩
      next => exact hsame
  | moveAssign target source =>
      simp only [ConnectionState.call, change]
      split
      next object other htarget hsource =>
        split
        next => exact hrepresents.moveAssign htarget hsource
        next => exact hsame
      next => exact hsame
  | destroy name =>
      simp only [ConnectionState.call, change]
      split
      next => exact hsame
      next object hname => exact ⟨_, hrepresents.destroy hname⟩

end Tracked

/-! ## Runs -/

section Runs

variable [DecidableEq Name]

theorem addressLists_clientConnection (state : ConnectionState Name)
    (name : Name) (status : Except String Unit) (created connected : Bool) :
    (state.clientConnection name status created connected).2.addressLists =
      state.addressLists +
        (state.clientConnectionChange status created connected).toList.count
          .addressList := by
  cases status <;> cases created <;> cases connected <;> rfl

theorem addressLists_serverConnection (state : ConnectionState Name)
    (name : Name) (status : Except String Unit) (created : Bool)
    (bound listening : Except String Unit) :
    (state.serverConnection name status created bound
        listening).2.addressLists =
      state.addressLists + (state.serverConnectionChange status created bound
        listening).toList.count .addressList := by
  cases status <;> cases created <;> cases bound <;> cases listening <;> rfl

theorem addressLists_call (state : ConnectionState Name)
    (next : Call Name) :
    (state.call next).addressLists =
      state.addressLists + (state.change next).toList.count .addressList := by
  cases next with
  | clientConnection name status created connected =>
      cases hname : state.objects name with
      | none =>
          simp only [call, change, hname]
          exact addressLists_clientConnection state name _ _ _
      | some object => simp [call, change, hname]
  | clientConnectionOfFd name fd =>
      cases hname : state.objects name with
      | none =>
          simp only [call, change, hname]
          split <;> rfl
      | some object => simp [call, change, hname]
  | serverConnection name status created bound listening =>
      cases hname : state.objects name with
      | none =>
          simp only [call, change, hname]
          exact addressLists_serverConnection state name _ _ _ _
      | some object => simp [call, change, hname]
  | accept listener name answers =>
      simp only [call, accept, change]
      split
      next =>
        split
        next => rfl
        next outcome haccept =>
          split at haccept <;> cases haccept <;> rfl
      next => rfl
  | moveConstruct target source =>
      simp only [call, change]
      split <;> rfl
  | moveAssign target source =>
      simp only [call, moveAssign, change]
      split
      next =>
        split
        next =>
          split
          next => simp [moveFrom, place, free]
          next => rfl
        next => rfl
      next => rfl
  | destroy name =>
      simp only [call, change]
      split
      next => rfl
      next => simp [destroy, free]

theorem after_tracked {descriptors : Finset ℕ} {calls : List (Call Name)}
    (hpermitted : AllPermitted descriptors calls) :
    Tracked (after descriptors calls) (unheld descriptors calls) := by
  induction calls using List.reverseRecOn with
  | nil => exact ⟨_, initial_represents descriptors⟩
  | append_singleton earlier next ih =>
      have hearlier : AllPermitted descriptors earlier :=
        fun before later hbegins => hpermitted before later
          (hbegins.trans (List.prefix_append _ _))
      rcases ih hearlier with ⟨table, hrepresents⟩
      have hnext := hrepresents.call
        (hpermitted earlier next List.prefix_rfl)
      rw [unheld, changes, RunHistory.reduceOption_outputs_concat, after,
        RunHistory.exec_append, List.foldl_append]
      exact hnext

theorem after_addressLists (descriptors : Finset ℕ)
    (calls : List (Call Name)) :
    (after descriptors calls).addressLists =
      (changes descriptors calls).count .addressList := by
  induction calls using List.reverseRecOn with
  | nil => rfl
  | append_singleton earlier next ih =>
      rw [changes, RunHistory.reduceOption_outputs_concat, List.count_append,
        ← changes, ← ih, after, RunHistory.exec_append]
      exact addressLists_call _ next

/-- Where the open descriptors of a program are, and what it has done to
them. -/
structure Accounted (unheld : Finset ℕ) (changes : List Change)
    (state : ConnectionState Name) : Prop where
  opened : ∀ descriptor : ℕ, descriptor ∈ state.descriptors ↔
    descriptor ∈ unheld ∨
      ∃ name object, state.objects name = some object ∧
        object.fd = descriptor
  /-- An object that was not moved from is the one holder of a descriptor. -/
  held : ∀ name object, state.objects name = some object →
    object.fd = -1 ∨ ∃ descriptor : ℕ, object.fd = descriptor ∧
      descriptor ∉ unheld ∧
        ∀ second other, state.objects second = some other →
          other.fd = descriptor → second = name
  /-- No call of `close` was on a descriptor that was not open. -/
  closed : ∀ entry ∈ state.closed, entry.2 = false → entry.1 = -1
  addressLists : state.addressLists = changes.count .addressList

/-- The descriptors that no object holds are those that were open before or
that a constructor has lost, without those adopted since. -/
theorem descriptors_accounted (initially : Finset ℕ)
    (calls : List (Call Name))
    (hpermitted : AllPermitted initially calls) :
    Accounted (unheld initially calls) (changes initially calls)
      (after initially calls) := by
  rcases after_tracked hpermitted with ⟨table, hrepresents⟩
  constructor
  · intro descriptor
    rw [← hrepresents.opened, HandleTable.mem_opened_iff, hrepresents.loose,
      Finset.mem_coe]
    simp only [hrepresents.held_iff]
  · intro name object hobject
    by_cases hmoved : object.fd = -1
    · exact .inl hmoved
    · have hnumbered := hrepresents.numbered hobject
      have hfd : object.fd = object.fd.toNat := by omega
      have hholds : table.held name = some object.fd.toNat :=
        hrepresents.held_iff.mpr ⟨object, hobject, hfd⟩
      have hloosely : object.fd.toNat ∉ table.loose := fun hnone =>
        hnone.2 name hholds
      rw [hrepresents.loose, Finset.mem_coe] at hloosely
      refine .inr ⟨_, hfd, hloosely, ?_⟩
      intro second other hother hsame
      exact table.held_once (hrepresents.held_iff.mpr ⟨other, hother, hsame⟩)
        hholds
  · exact hrepresents.closed
  · exact after_addressLists initially calls

end Runs

/-- A connection adopts a descriptor that was open before, a constructor
loses what it has opened, and the connection is moved from and destroyed. -/
theorem descriptors_accounted_adopted :
    let initially : Finset ℕ := {0, 1, 2, 3}
    let calls : List (Call Bool) :=
      [.clientConnectionOfFd true 3,
        .clientConnection false (.ok ()) true false,
        .moveConstruct false true, .destroy true]
    Accounted (unheld initially calls) (changes initially calls)
        (after initially calls) ∧
      unheld initially calls = {0, 1, 2, 4} ∧
        (after initially calls).objects false = some ⟨.client, 3⟩ ∧
          (after initially calls).closed = [(-1, false)] := by
  intro initially calls
  have hpermitted : AllPermitted initially calls := by
    intro before next hbegins
    cases next with
    | clientConnectionOfFd name fd =>
        cases before with
        | nil =>
            have hfd : name = true ∧ fd = 3 := by
              simpa [calls] using hbegins
            exact .inr ⟨⟨3, by decide, hfd.2⟩,
              fun _ _ hobject => nomatch hobject⟩
        | cons first earlier =>
            have hlater := (List.cons_prefix_cons.mp hbegins).2.subset
              (List.mem_append_right earlier List.mem_cons_self)
            simp at hlater
    | _ => trivial
  have hnew : ((initial initially).clientConnectionOfFd true 3).newDescriptor =
      4 := newDescriptor_eq_iff.mpr (by decide)
  have hunheld : unheld initially calls =
      insert ((initial initially).clientConnectionOfFd true 3).newDescriptor
        (initially.erase 3) := rfl
  refine ⟨descriptors_accounted initially calls hpermitted, ?_, rfl, rfl⟩
  rw [hunheld, hnew]
  decide

end ConnectionState

end Slipstream
