import Slipstream.DispatchRuns

/-!
# Session control

An operator opens, halts and closes the session from the console.  The
session state is kept by the console thread and the halt flag by the engine;
meanwhile the dispatcher goes on handling the messages that are already
queued.

The flag follows the state with one exception: a session that is closed
while it is open leaves the engine running.  A run trades outside the session
only after that has happened.
-/

namespace Slipstream

structure SessionControlHandler where
  currentState : SessionControlState
  shouldStop : Bool
  deriving DecidableEq

/-- The console thread with the objects it points to.  Of the receivers and
of the shutdown signal only the flags that `handleClose` sets are kept. -/
structure Session where
  control : SessionControlHandler
  components : Components
  oeReceiverShutdown : Bool
  mdReceiverShutdown : Bool
  shutdownTriggered : Bool

namespace Session

def initial (setup : Components.Setup) : Session where
  control := { currentState := .opened, shouldStop := false }
  components := Components.initial setup
  oeReceiverShutdown := false
  mdReceiverShutdown := false
  shutdownTriggered := false

def haltTrading (session : Session) : Session :=
  { session with
    components.executionEngine :=
      session.components.executionEngine.haltTrading }

def resumeTrading (session : Session) : Session :=
  { session with
    components.executionEngine :=
      session.components.executionEngine.resumeTrading }

/-! ## Console commands -/

def handleHalt (session : Session) : Session × List String :=
  if session.control.currentState ≠ .opened then
    (session, ["Cannot halt session. Current state is not OPEN."])
  else
    let session := session.haltTrading
    ({ session with control.currentState := .halt },
      ["HALT command received. Stopping session."])

def handleOpen (session : Session) : Session × List String :=
  if session.control.currentState ≠ .halt then
    (session, ["Cannot open session. Current state is not HALT."])
  else
    let session := session.resumeTrading
    ({ session with control.currentState := .opened },
      ["OPEN command received. Starting trading."])

def handleClose (session : Session) : Session × List String :=
  if session.control.currentState = .close then
    (session, ["Session is already closed."])
  else
    ({ session with
        control := { currentState := .close, shouldStop := true }
        oeReceiverShutdown := true
        mdReceiverShutdown := true
        shutdownTriggered := true },
      ["Session closed."])

/-- One round of the loop of `runSession`, for the line that it reads. -/
def runSession (session : Session) (input : String) :
    Session × List String :=
  if session.control.shouldStop then (session, [])
  else if input = "HALT" then session.handleHalt
  else if input = "OPEN" then session.handleOpen
  else if input = "CLOSE" then
    let closed := session.handleClose
    (closed.1, "CLOSE command received. Stopping trading." :: closed.2)
  else (session, ["Unknown command: " ++ input])

/-! ## Runs -/

inductive Event where
  | line (input : String)
  | message (delivery : Components.Delivery)

def Event.line? : Event → Option String
  | .line input => some input
  | .message _ => none

structure Reaction where
  printed : List String
  orders : List NewOrder

def step (session : Session) : Event → Session × Reaction
  | .line input =>
      let (session, printed) := session.runSession input
      (session, ⟨printed, []⟩)
  | .message delivery =>
      let (components, orders) :=
        Components.dispatch session.components delivery
      ({ session with components := components }, ⟨[], orders⟩)

def after (setup : Components.Setup) (events : List Event) : Session :=
  RunHistory.exec step (initial setup) events

def lines (events : List Event) : List String :=
  events.filterMap Event.line?

section Concat

variable (setup : Components.Setup) (events : List Event)

theorem after_concat (event : Event) :
    after setup (events ++ [event]) =
      (step (after setup events) event).1 := by
  simp [after]

theorem lines_concat_line (input : String) :
    lines (events ++ [.line input]) = lines events ++ [input] := by
  simp [lines, Event.line?]

theorem lines_concat_message (delivery : Components.Delivery) :
    lines (events ++ [.message delivery]) = lines events := by
  simp [lines, Event.line?]

end Concat

/-! ## The session that the commands describe -/

def commanded (state : SessionControlState) (input : String) :
    SessionControlState :=
  if state = .opened ∧ input = "HALT" then .halt
  else if state = .halt ∧ input = "OPEN" then .opened
  else if input = "CLOSE" then .close
  else state

def sessionState (inputs : List String) : SessionControlState :=
  inputs.foldl commanded .opened

/-- A `CLOSE` that finds the session open. -/
def ClosesOpenSession (inputs : List String) : Prop :=
  ∃ earlier, earlier ++ ["CLOSE"] <+: inputs ∧
    sessionState earlier = .opened

theorem sessionState_concat (inputs : List String) (input : String) :
    sessionState (inputs ++ [input]) =
      commanded (sessionState inputs) input := by
  simp [sessionState]

theorem not_closesOpenSession_nil : ¬ ClosesOpenSession [] := by
  rintro ⟨earlier, hbegins, _⟩
  simp at hbegins

theorem closesOpenSession_concat (inputs : List String) (input : String) :
    ClosesOpenSession (inputs ++ [input]) ↔
      ClosesOpenSession inputs ∨
        (sessionState inputs = .opened ∧ input = "CLOSE") := by
  constructor
  · rintro ⟨earlier, hbegins, hopened⟩
    rcases List.prefix_concat_iff.mp hbegins with heq | hshorter
    · rcases List.append_inj' heq rfl with ⟨rfl, hclose⟩
      exact .inr ⟨hopened, (List.cons.inj hclose).1.symm⟩
    · exact .inl ⟨earlier, hshorter, hopened⟩
  · rintro (⟨earlier, hbegins, hopened⟩ | ⟨hopened, rfl⟩)
    · exact ⟨earlier, hbegins.trans (List.prefix_append _ _), hopened⟩
    · exact ⟨inputs, List.prefix_rfl, hopened⟩

theorem commanded_close (input : String) :
    commanded .close input = .close := by
  simp [commanded]

theorem sessionState_of_closesOpenSession {inputs : List String}
    (hcloses : ClosesOpenSession inputs) : sessionState inputs = .close := by
  induction inputs using List.reverseRecOn with
  | nil => exact absurd hcloses not_closesOpenSession_nil
  | append_singleton earlier input ih =>
      rw [sessionState_concat]
      rcases (closesOpenSession_concat earlier input).mp hcloses with
        hbefore | ⟨hopened, rfl⟩
      · rw [ih hbefore, commanded_close]
      · rw [hopened]
        rfl

/-! ## The halt flag and the session -/

/-- The session the console thread has reached after `inputs`, and the halt
flag of the engine. -/
structure Linked (inputs : List String) (session : Session) : Prop where
  state : session.control.currentState = sessionState inputs
  stopped : session.control.shouldStop = true ↔
    sessionState inputs = .close
  running : session.components.executionEngine.isHalted = false ↔
    sessionState inputs = .opened ∨ ClosesOpenSession inputs

theorem linked_initial (setup : Components.Setup) :
    Linked [] (initial setup) where
  state := rfl
  stopped := by simp [initial, sessionState]
  running := by
    simp [initial, Components.initial, ExecutionEngine.initial,
      sessionState]

/-- A line that leaves session, state and flag as they are. -/
theorem Linked.unchanged {inputs : List String} {session : Session}
    (hlinked : Linked inputs session) {input : String}
    (hsame : commanded (sessionState inputs) input = sessionState inputs)
    (hclose : sessionState inputs = .opened → input ≠ "CLOSE") :
    Linked (inputs ++ [input]) session := by
  have hcloses : ClosesOpenSession (inputs ++ [input]) ↔
      ClosesOpenSession inputs := by
    rw [closesOpenSession_concat]
    constructor
    · rintro (hbefore | ⟨hopened, heq⟩)
      · exact hbefore
      · exact absurd heq (hclose hopened)
    · exact .inl
  constructor
  · rw [sessionState_concat, hsame]
    exact hlinked.state
  · rw [sessionState_concat, hsame]
    exact hlinked.stopped
  · rw [sessionState_concat, hsame, hcloses]
    exact hlinked.running

section Commands

variable {inputs : List String} {session : Session}
  (hlinked : Linked inputs session)
include hlinked

theorem Linked.goes_on (hsession : sessionState inputs ≠ .close) :
    session.control.shouldStop = false := by
  simpa [← Bool.not_eq_true, hlinked.stopped] using hsession

theorem Linked.runSession_close (hsession : sessionState inputs = .close)
    (input : String) :
    Linked (inputs ++ [input]) (session.runSession input).1 := by
  have hstop := hlinked.stopped.mpr hsession
  rw [Session.runSession, if_pos hstop]
  apply hlinked.unchanged
  · rw [hsession, commanded_close]
  · simp [hsession]

theorem Linked.runSession_opened (hsession : sessionState inputs = .opened)
    (input : String) :
    Linked (inputs ++ [input]) (session.runSession input).1 := by
  have hgoes := hlinked.goes_on (by simp [hsession])
  have hrunning := hlinked.running.mpr (.inl hsession)
  have hstate : session.control.currentState = .opened :=
    hlinked.state.trans hsession
  have hnever : ¬ ClosesOpenSession inputs := fun hbefore => by
    simpa [hsession] using sessionState_of_closesOpenSession hbefore
  by_cases hhalt : input = "HALT"
  · subst hhalt
    constructor <;>
      simp [Session.runSession, hgoes, handleHalt, hstate,
        Session.haltTrading, ExecutionEngine.haltTrading,
        sessionState_concat, commanded, hsession,
        closesOpenSession_concat, hnever]
  · by_cases hopen : input = "OPEN"
    · subst hopen
      simp only [Session.runSession, hgoes, handleOpen, hstate]
      apply hlinked.unchanged
      · simp [commanded, hsession]
      · simp
    · by_cases hclose : input = "CLOSE"
      · subst hclose
        constructor <;>
          simp [Session.runSession, hgoes, handleClose, hstate,
            sessionState_concat, commanded, hsession, hrunning,
            closesOpenSession_concat]
      · simp only [Session.runSession, hgoes, hhalt, hopen, hclose]
        apply hlinked.unchanged
        · simp [commanded, hsession, hhalt, hclose]
        · exact fun _ => hclose

theorem Linked.runSession_halt (hsession : sessionState inputs = .halt)
    (input : String) :
    Linked (inputs ++ [input]) (session.runSession input).1 := by
  have hgoes := hlinked.goes_on (by simp [hsession])
  have hstate : session.control.currentState = .halt :=
    hlinked.state.trans hsession
  have hnever : ¬ ClosesOpenSession inputs := fun hbefore => by
    simpa [hsession] using sessionState_of_closesOpenSession hbefore
  have hhalted : ¬ session.components.executionEngine.isHalted =
      false := by
    simp [hlinked.running, hsession, hnever]
  by_cases hhalt : input = "HALT"
  · subst hhalt
    simp only [Session.runSession, hgoes, handleHalt, hstate]
    apply hlinked.unchanged
    · simp [commanded, hsession]
    · simp
  · by_cases hopen : input = "OPEN"
    · subst hopen
      constructor <;>
        simp [Session.runSession, hgoes, handleOpen, hstate,
          Session.resumeTrading, ExecutionEngine.resumeTrading,
          sessionState_concat, commanded, hsession]
    · by_cases hclose : input = "CLOSE"
      · subst hclose
        constructor <;>
          simp [Session.runSession, hgoes, handleClose, hstate,
            sessionState_concat, commanded, hsession, hhalted,
            closesOpenSession_concat, hnever]
      · simp only [Session.runSession, hgoes, hhalt, hopen, hclose]
        apply hlinked.unchanged
        · simp [commanded, hsession, hopen, hclose]
        · exact fun _ => hclose

theorem Linked.runSession (input : String) :
    Linked (inputs ++ [input]) (session.runSession input).1 := by
  cases hsession : sessionState inputs with
  | close => exact hlinked.runSession_close hsession input
  | opened => exact hlinked.runSession_opened hsession input
  | halt => exact hlinked.runSession_halt hsession input

end Commands

theorem after_linked (setup : Components.Setup) (events : List Event) :
    Linked (lines events) (after setup events) := by
  induction events using List.reverseRecOn with
  | nil => exact linked_initial setup
  | append_singleton earlier event ih =>
      rw [after_concat]
      cases event with
      | line input =>
          rw [lines_concat_line]
          exact ih.runSession input
      | message delivery =>
          rw [lines_concat_message]
          constructor
          · exact ih.state
          · exact ih.stopped
          · rw [step, Components.dispatch_isHalted]
            exact ih.running

/-! ## Trades outside the session -/

def executedQuantity (session : Session) : UInt64 :=
  session.components.executionEngine.getExecutedQuantity

/-- A trade handled while the session is halted or closed brings no accepted
order and leaves the executed quantity as it is. -/
def NoTradingOutsideSession (setup : Components.Setup)
    (events : List Event) : Prop :=
  ∀ past trade clock,
    past ++ [.message ⟨.trade trade, clock⟩] <+: events →
    (after setup past).control.currentState ≠ .opened →
    (∀ order ∈
        (step (after setup past) (.message ⟨.trade trade, clock⟩)).2.orders,
      order.status ≠ .accepted) ∧
    (after setup
        (past ++ [.message ⟨.trade trade, clock⟩])).executedQuantity =
      (after setup past).executedQuantity

/-- The engine's own tests, made when the dispatcher hands over a trade. -/
def accepts (session : Session) (trade : Trade) (clock : ClockReadings) :
    Bool :=
  session.components.executionEngine.accepts (session.components.fed trade)
    clock trade

theorem no_acceptance_iff (session : Session) (trade : Trade)
    (clock : ClockReadings) :
    ((∀ order ∈ (step session (.message ⟨.trade trade, clock⟩)).2.orders,
        order.status ≠ .accepted) ∧
      (step session (.message ⟨.trade trade, clock⟩)).1.executedQuantity =
        session.executedQuantity) ↔
      session.accepts trade clock = false := by
  rcases ExecutionEngine.handleTrade_eq
      session.components.executionEngine (session.components.fed trade) clock
      trade with ⟨horder, hengine⟩
  rw [executedQuantity, executedQuantity, step, Components.dispatch_trade]
  dsimp only
  rw [horder, hengine]
  cases haccepts : session.accepts trade clock with
  | true =>
      rw [accepts] at haccepts
      have hanswered : session.components.executionEngine.suppresses
          clock = false := by
        simp only [ExecutionEngine.accepts, Bool.and_eq_true] at haccepts
        simp_all [ExecutionEngine.suppresses]
      simp [hanswered, ExecutionEngine.answer, haccepts]
  | false =>
      rw [accepts] at haccepts
      cases hanswered : session.components.executionEngine.suppresses
          clock <;>
        simp [ExecutionEngine.answer, haccepts,
          ExecutionEngine.getExecutedQuantity]

theorem not_accepts_of_halted {session : Session}
    (hhalted : session.components.executionEngine.isHalted = true)
    (trade : Trade) (clock : ClockReadings) :
    session.accepts trade clock = false := by
  simp [accepts, ExecutionEngine.accepts, hhalted]

theorem noTradingOutsideSession_iff (setup : Components.Setup)
    (events : List Event) :
    NoTradingOutsideSession setup events ↔
      ∀ past trade clock,
        past ++ [.message ⟨.trade trade, clock⟩] <+: events →
        ClosesOpenSession (lines past) →
        (after setup past).accepts trade clock = false := by
  constructor
  · intro hquiet past trade clock hbegins hcloses
    rw [← no_acceptance_iff, ← after_concat]
    apply hquiet past trade clock hbegins
    rw [(after_linked setup past).state,
      sessionState_of_closesOpenSession hcloses]
    decide
  · intro hguard past trade clock hbegins houtside
    rw [after_concat, no_acceptance_iff]
    have hlinked := after_linked setup past
    by_cases hcloses : ClosesOpenSession (lines past)
    · exact hguard past trade clock hbegins hcloses
    · apply not_accepts_of_halted
      rw [hlinked.state] at houtside
      rw [← Bool.not_eq_false, hlinked.running]
      simp [houtside, hcloses]

/-! ## A run with given console lines -/

/-- A sell that every warmed-up engine accepts, whatever its limits: it asks
for no units and has the price zero. -/
def emptySell (setup : Components.Setup) : Trade :=
  { Components.unitTrade setup.symbol .sell with quantity := 0 }

def messages (stream : List Components.Delivery) : List Event :=
  stream.map .message

/-- The engine is warmed up, then the console lines are executed. -/
def warmedUp (setup : Components.Setup) (inputs : List String) :
    List Event :=
  messages (Components.warmUp setup.symbol) ++ inputs.map .line

theorem after_messages (setup : Components.Setup)
    (stream : List Components.Delivery) :
    (after setup (messages stream)).components =
      Components.after setup stream := by
  induction stream using List.reverseRecOn with
  | nil => rfl
  | append_singleton earlier delivery ih =>
      rw [messages, List.map_append, List.map_singleton, ← messages,
        after_concat, step, Components.after_concat]
      dsimp only
      rw [ih]

def withHaltFlag (components : Components) (halted : Bool) : Components :=
  { components with executionEngine.isHalted := halted }

theorem withHaltFlag_self {components : Components} {halted : Bool}
    (hflag : components.executionEngine.isHalted = halted) :
    withHaltFlag components halted = components := by
  rw [← hflag]
  rfl

/-- The console thread touches nothing of the components but the halt
flag. -/
theorem runSession_components (session : Session) (input : String) :
    ∃ halted, (session.runSession input).1.components =
      withHaltFlag session.components halted := by
  have hsame : ∃ halted, session.components =
      withHaltFlag session.components halted :=
    ⟨_, (withHaltFlag_self rfl).symm⟩
  unfold runSession
  split
  · exact hsame
  · split
    · unfold handleHalt
      split
      · exact hsame
      · exact ⟨true, rfl⟩
    · split
      · unfold handleOpen
        split
        · exact hsame
        · exact ⟨false, rfl⟩
      · split
        · unfold handleClose
          dsimp only
          split <;> exact hsame
        · exact hsame

theorem after_lines_components (setup : Components.Setup)
    (events : List Event) (inputs : List String) :
    ∃ halted, (after setup (events ++ inputs.map .line)).components =
      withHaltFlag (after setup events).components halted := by
  induction inputs using List.reverseRecOn with
  | nil =>
      rw [List.map_nil, List.append_nil]
      exact ⟨_, (withHaltFlag_self rfl).symm⟩
  | append_singleton earlier input ih =>
      rcases ih with ⟨before, hbefore⟩
      rcases runSession_components
          (after setup (events ++ earlier.map .line)) input with
        ⟨halted, hstep⟩
      refine ⟨halted, ?_⟩
      rw [List.map_append, List.map_singleton, ← List.append_assoc,
        after_concat, step]
      dsimp only
      rw [hstep, hbefore]
      rfl

theorem lines_warmedUp (setup : Components.Setup) (inputs : List String) :
    lines (warmedUp setup inputs) = inputs := by
  simp [lines, warmedUp, messages, List.filterMap_map, Function.comp_def,
    Event.line?]

/-- A close that found the session open has left the engine running, with
everything else as the messages made it. -/
theorem after_warmedUp_components {setup : Components.Setup}
    {inputs : List String} (hcloses : ClosesOpenSession inputs) :
    (after setup (warmedUp setup inputs)).components =
      Components.after setup (Components.warmUp setup.symbol) := by
  rcases after_lines_components setup
      (messages (Components.warmUp setup.symbol)) inputs with ⟨halted, hlines⟩
  have hrunning := (after_linked setup (warmedUp setup inputs)).running
  rw [lines_warmedUp] at hrunning
  have hflag := hrunning.mpr (.inr hcloses)
  rw [warmedUp, hlines] at hflag
  have hhalted : halted = false := hflag
  rw [warmedUp, hlines, after_messages, hhalted]
  exact withHaltFlag_self (Components.after_running setup _)

theorem accepts_emptySell {setup : Components.Setup}
    {inputs : List String} (hcloses : ClosesOpenSession inputs) :
    (after setup (warmedUp setup inputs)).accepts (emptySell setup)
      ⟨setup.config.vwapWindowMs, 0, 0⟩ = true := by
  rw [accepts, after_warmedUp_components hcloses,
    Components.fed_after_warmUp]
  have hfree : ((Components.unitService setup
      (emptySell setup)).getVWAP 0).1 = 0 :=
    VWAPService.getVWAP_eq_zero_of_free (.inr rfl) rfl
  exact ExecutionEngine.accepts_sell_of_zero
    (Components.warmUp_ready setup setup.symbol)
    (Components.after_running setup _) hfree rfl UInt64.zero_le

theorem ClosesOpenSession.mono {earlier inputs : List String}
    (hcloses : ClosesOpenSession earlier) (hbegins : earlier <+: inputs) :
    ClosesOpenSession inputs := by
  rcases hcloses with ⟨before, hbefore, hopened⟩
  exact ⟨before, hbefore.trans hbegins, hopened⟩

/-- A run keeps out of the market while the session is not open exactly when
no trade passes the engine's tests after an open session has been closed.
The console lines alone ensure this exactly when they close no open
session. -/
theorem no_trading_outside_session_iff (setup : Components.Setup) :
    (∀ events, NoTradingOutsideSession setup events ↔
      ∀ past trade clock,
        past ++ [.message ⟨.trade trade, clock⟩] <+: events →
        ClosesOpenSession (lines past) →
        (after setup past).accepts trade clock = false) ∧
      ∀ inputs,
        (∀ events, lines events = inputs →
          NoTradingOutsideSession setup events) ↔
        ¬ ClosesOpenSession inputs := by
  constructor
  · exact noTradingOutsideSession_iff setup
  · intro inputs
    constructor
    · intro hquiet hcloses
      have hlines := lines_warmedUp setup inputs
      have hlate := hquiet (warmedUp setup inputs ++
        [.message ⟨.trade (emptySell setup),
          ⟨setup.config.vwapWindowMs, 0, 0⟩⟩]) (by
            rw [lines_concat_message, hlines])
      rw [noTradingOutsideSession_iff] at hlate
      have hrefused := hlate _ _ _ List.prefix_rfl (by rwa [hlines])
      rw [accepts_emptySell hcloses] at hrefused
      contradiction
    · intro hnever events hevents
      rw [noTradingOutsideSession_iff]
      intro past trade clock hbegins hcloses
      refine absurd (hcloses.mono ?_) hnever
      rw [← hevents]
      exact ((List.prefix_append past _).trans hbegins).filterMap _

/-- The operator closes an open session while a trade is queued. -/
theorem trade_accepted_after_close :
    ¬ NoTradingOutsideSession Components.sampleSetup
        (messages (Components.warmUp Components.sampleSetup.symbol) ++
          [.line "CLOSE",
            .message (Components.unitDelivery Components.sampleSetup
              Components.sampleSetup.symbol .buy)]) := by
  intro hquiet
  have hcloses : ClosesOpenSession ["CLOSE"] := ⟨[], List.prefix_rfl, rfl⟩
  rw [noTradingOutsideSession_iff] at hquiet
  have hrefused := hquiet (warmedUp Components.sampleSetup ["CLOSE"]) _ _
    List.prefix_rfl (by rwa [lines_warmedUp])
  rw [accepts, after_warmedUp_components hcloses,
    Components.fed_after_warmUp, Components.warmUp_accepts_buy] at hrefused
  · contradiction
  · decide
  · decide

end Session

end Slipstream
