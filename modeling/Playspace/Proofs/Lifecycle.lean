import Playspace.Lib.Machine
import Playspace.Proofs.Handler

/-!
# An object from construction to destruction

`setup` works for one object in a process, once, and it catches what its body
throws, so an object can live on with any initial piece of it done: no sockets,
a client only, some of the entries. Nothing after that looks. `Setup` is how
far it got, read off the calls alone, and `Operation.Ready` says what each
operation needs of it; `Progress.noFault_iff` is the whole story for one call,
and `lifecycle_safe_iff` for every sequence of calls.
-/

namespace Playspace.Citbrains.InfoShare

open CitbrainsMessage (wire)

/-- The getters, for an operation to name one. -/
inductive Getter where
  | status
  | voltage
  | fps
  | temperature
  | highestServo
  | command
  | currentBehaviorName
  | recvTime
  | ourRobotGl
  | enemyRobotGl
  | blackPoleGl
  | targetPosVec
  | ballGlCf
  | selfPosCf

/-- A call of the getter, its value dropped. -/
def Getter.call (s : InfoShare) (id : Int) : Getter → Except Stop Unit
  | .status => (s.getstatus id).map fun _ => ()
  | .voltage => (s.getvoltage id).map fun _ => ()
  | .fps => (s.getfps id).map fun _ => ()
  | .temperature => (s.gettemperature id).map fun _ => ()
  | .highestServo => (s.gethighestServo id).map fun _ => ()
  | .command => (s.getcommand id).map fun _ => ()
  | .currentBehaviorName => (s.getcurrentBehaviorName id).map fun _ => ()
  | .recvTime => (s.getrecvTime id).map fun _ => ()
  | .ourRobotGl => (s.getourRobotGl id).map fun _ => ()
  | .enemyRobotGl => (s.getenemyRobotGl id).map fun _ => ()
  | .blackPoleGl => (s.getblackPoleGl id).map fun _ => ()
  | .targetPosVec => (s.gettargetPosVec id).map fun _ => ()
  | .ballGlCf => (s.getballGlCf id).map fun _ => ()
  | .selfPosCf => (s.getselfPosCf id).map fun _ => ()

/-- What the program can do with the object; `otherSetup` is a call of `setup`
on another object of the same process. -/
inductive Operation where
  | otherSetup
  | setup (args : SetupArgs) (stop : SetupEnd) (clock : Nat → ℚ)
  | changeColor (color : Int)
  | sendCommonInfo (info : CommonInfo)
  | get (getter : Getter) (id : Int)
  | terminate
  | destroy

/-- The static flag of `setup` and the object. -/
structure Process where
  alreadySetup : Bool
  object : InfoShare

/-- One operation. Without an object there is nothing left to do: it was
destroyed, or an assertion ended the process. -/
def lifeStep (pb : Protobuf) (fc : FloatCast) :
    Option Process → Operation → Except Stop (Option Process)
  | none, _ => .ok none
  | some p, .otherSetup => .ok (some { p with alreadySetup := true })
  | some p, .setup args stop clock =>
      .ok ((p.object.setup args stop clock p.alreadySetup).map
        fun (flag, object) => ⟨flag, object⟩)
  | some p, .changeColor color =>
      .ok (some { p with object := p.object.changeColor color })
  | some p, .sendCommonInfo info =>
      (p.object.sendCommonInfo pb fc info).map fun _ => some p
  | some p, .get getter id => (getter.call p.object id).map fun _ => some p
  | some p, .terminate =>
      p.object.terminate.map fun object => some { p with object := object }
  | some p, .destroy => p.object.terminate.map fun _ => none

/-! ## How far `setup` got -/

/-- The object's `setup`, as far as it matters: nobody in the process has
called it, another object was first, or this one was and got to `stop`. -/
inductive Setup where
  | pending
  | taken
  | ran (args : SetupArgs) (stop : SetupEnd)

namespace Setup

def selfId : Setup → Int
  | .ran args _ => args.selfId
  | _ => 1

def entries : Setup → Int
  | .ran _ stop => min stop.entries numPlayers
  | _ => 0

def hasClient : Setup → Bool
  | .ran _ stop => stop.hasClient
  | _ => false

def hasServer : Setup → Bool
  | .ran _ stop => stop.hasServer
  | _ => false

def after : Setup → Operation → Setup
  | .pending, .setup args stop _ => .ran args stop
  | .pending, .otherSetup => .taken
  | setup, _ => setup

/-- How far `setup` got by a list of operations, from the process's flag. -/
def of (alreadySetup : Bool) (operations : List Operation) : Setup :=
  operations.foldl after (if alreadySetup then .taken else .pending)

end Setup

/-- What an operation needs. A call of `sendCommonInfo` whose texts do not
encode needs nothing, as it does not get to the socket. -/
def Operation.Ready (d : SerializeStringByDict) (setup : Setup) : Operation → Prop
  | .sendCommonInfo info => setup.hasClient ∨
      d.commandToNumSequence info.message = none ∨
      d.behaviorNameToNumSequence info.behaviorName = none
  | .get _ id => id = setup.selfId ∨ id < 1 ∨ numPlayers < id ∨ id ≤ setup.entries
  | .terminate => setup.hasServer
  | .destroy => setup.hasServer
  | _ => True

/-- The object is in the state its `setup` left it in. -/
structure Progress (d : SerializeStringByDict) (setup : Setup) (p : Process) :
    Prop where
  flag : p.alreadySetup = true ↔ setup ≠ .pending
  entries : (p.object.robotDataList.length : Int) = setup.entries
  selfId : p.object.selfId = setup.selfId
  client : p.object.client.isSome = setup.hasClient
  server : p.object.server.isSome = setup.hasServer
  dictionary : p.object.dictionary = d

/-- A call of `setup` that does something, on an object nothing was done to. -/
theorem setup_progress {args : SetupArgs} {stop : SetupEnd} {clock : Nat → ℚ}
    {s s' : InfoShare} {flag : Bool} (hnil : s.robotDataList = [])
    (hclient : s.client = none) (hserver : s.server = none)
    (h : s.setup args stop clock false = some (flag, s')) :
    Progress s.dictionary (.ran args stop) ⟨flag, s'⟩ := by
  obtain ⟨-, rfl, rfl⟩ := setup_first h
  refine ⟨by simp, ?_, rfl, ?_, ?_, rfl⟩
  · rw [hnil, List.nil_append, List.length_take, length_newEntries]
    simp [Setup.entries, numPlayers]
  · rw [hclient]
    cases hmade : stop.hasClient with
    | true => simp [Setup.hasClient, hmade]
    | false => simp [Setup.hasClient, hmade]
  · rw [hserver]
    cases hmade : stop.hasServer with
    | true => simp [Setup.hasServer, hmade]
    | false => simp [Setup.hasServer, hmade]

variable {pb : Protobuf} {fc : FloatCast} {d : SerializeStringByDict} {stage : Setup}
  {p : Process}

theorem Progress.new {commandFile behaviorFile : Bytes} {robot : InfoShare}
    (hnew : InfoShare.new commandFile behaviorFile = some robot) (alreadySetup : Bool) :
    Progress robot.dictionary (.of alreadySetup []) ⟨alreadySetup, robot⟩ := by
  unfold InfoShare.new at hnew
  cases hd : SerializeStringByDict.new commandFile behaviorFile with
  | none => rw [hd] at hnew; cases hnew
  | some d =>
      rw [hd] at hnew
      cases hnew
      cases alreadySetup with
      | true => exact ⟨by simp [Setup.of], rfl, rfl, rfl, rfl, rfl⟩
      | false => exact ⟨by simp [Setup.of], rfl, rfl, rfl, rfl, rfl⟩

/-- Before its own `setup` nothing was done to the object. -/
theorem Progress.untouched (h : Progress d .pending p) :
    p.object.robotDataList = [] ∧ p.object.client = none ∧ p.object.server = none := by
  refine ⟨?_, ?_, ?_⟩
  · have hlength : (p.object.robotDataList.length : Int) = 0 := h.entries
    exact List.length_eq_zero_iff.mp (by omega)
  · exact Option.isNone_iff_eq_none.mp (Option.isSome_eq_false_iff.mp h.client)
  · exact Option.isNone_iff_eq_none.mp (Option.isSome_eq_false_iff.mp h.server)

theorem Progress.setup (h : Progress d stage p) {args : SetupArgs} {stop : SetupEnd}
    {clock : Nat → ℚ} {flag : Bool} {s' : InfoShare}
    (hcall : p.object.setup args stop clock p.alreadySetup = some (flag, s')) :
    Progress d (stage.after (.setup args stop clock)) ⟨flag, s'⟩ := by
  cases hflag : p.alreadySetup with
  | true =>
      rw [hflag, InfoShare.setup, if_pos rfl] at hcall
      cases hcall
      have hne := h.flag.mp hflag
      have hafter : stage.after (.setup args stop clock) = stage := by
        cases stage with
        | pending => exact absurd rfl hne
        | taken => rfl
        | ran _ _ => rfl
      rw [hafter, ← hflag]
      exact h
  | false =>
      rw [hflag] at hcall
      obtain rfl : stage = .pending := by
        by_contra hne
        have := h.flag.mpr hne
        rw [hflag] at this
        cases this
      obtain ⟨hnil, hclient, hserver⟩ := h.untouched
      rw [← h.dictionary]
      exact setup_progress hnil hclient hserver hcall

theorem Progress.changeColor (h : Progress d stage p) (color : Int) :
    Progress d stage { p with object := p.object.changeColor color } := by
  unfold InfoShare.changeColor
  split
  · exact h
  · exact ⟨h.flag, h.entries, h.selfId, h.client, h.server, h.dictionary⟩

theorem Progress.otherSetup (h : Progress d stage p) :
    Progress d (stage.after .otherSetup) { p with alreadySetup := true } := by
  cases stage with
  | pending => exact ⟨by simp [Setup.after], h.entries, h.selfId, h.client, h.server,
      h.dictionary⟩
  | taken => exact ⟨by simp [Setup.after], h.entries, h.selfId, h.client, h.server,
      h.dictionary⟩
  | ran _ _ => exact ⟨by simp [Setup.after], h.entries, h.selfId, h.client, h.server,
      h.dictionary⟩

theorem Progress.terminate (h : Progress d stage p) {s' : InfoShare}
    (hcall : p.object.terminate = .ok s') :
    Progress d stage { p with object := s' } := by
  unfold InfoShare.terminate at hcall
  split at hcall
  · cases hcall
  · cases hcall
  · next server client hserver hclient =>
      cases hcall
      exact ⟨h.flag, h.entries, h.selfId, by rw [← h.client, hclient]; rfl,
        by rw [← h.server, hserver]; rfl, h.dictionary⟩

/-- Every operation after which there still is an object keeps the record. -/
theorem Progress.step (h : Progress d stage p) {op : Operation} {p' : Process}
    (hstep : lifeStep pb fc (some p) op = .ok (some p')) :
    Progress d (stage.after op) p' := by
  cases op with
  | otherSetup =>
      cases hstep
      exact h.otherSetup
  | setup args stop clock =>
      simp only [lifeStep, Except.ok.injEq, Option.map_eq_some_iff] at hstep
      obtain ⟨⟨flag, s'⟩, hcall, rfl⟩ := hstep
      exact h.setup hcall
  | changeColor color =>
      cases hstep
      cases stage <;> exact h.changeColor color
  | sendCommonInfo info =>
      simp only [lifeStep] at hstep
      cases hcall : p.object.sendCommonInfo pb fc info with
      | error f => rw [hcall] at hstep; cases hstep
      | ok ds =>
          rw [hcall] at hstep
          cases hstep
          cases stage <;> exact h
  | get getter id =>
      simp only [lifeStep] at hstep
      cases hcall : getter.call p.object id with
      | error f => rw [hcall] at hstep; cases hstep
      | ok u =>
          rw [hcall] at hstep
          cases hstep
          cases stage <;> exact h
  | terminate =>
      simp only [lifeStep] at hstep
      cases hcall : p.object.terminate with
      | error f => rw [hcall] at hstep; cases hstep
      | ok s' =>
          rw [hcall] at hstep
          cases hstep
          cases stage <;> exact h.terminate hcall
  | destroy =>
      simp only [lifeStep] at hstep
      cases hcall : p.object.terminate with
      | error f => rw [hcall] at hstep; cases hstep
      | ok s' => rw [hcall] at hstep; cases hstep

/-! ## Which operations fault -/

/-- The call dereferences no null pointer and stays inside the list. -/
def NoFault {β : Type} (result : Except Stop β) : Prop :=
  ∀ f, result = .error f → f = .diverges

theorem noFault_ok {β : Type} (b : β) : NoFault (.ok b) := by
  intro f h
  cases h

theorem noFault_error_iff {β : Type} (f : Stop) :
    NoFault (.error f : Except Stop β) ↔ f = .diverges := by
  refine ⟨?_, ?_⟩
  · intro h
    exact h f rfl
  · intro h g hg
    cases hg
    exact h

theorem noFault_map_iff {β γ : Type} (g : β → γ) (result : Except Stop β) :
    NoFault (result.map g) ↔ NoFault result := by
  cases result with
  | error f => exact (noFault_error_iff f).trans (noFault_error_iff f).symm
  | ok b => exact iff_of_true (noFault_ok _) (noFault_ok b)

theorem terminate_noFault_iff (s : InfoShare) :
    NoFault s.terminate ↔ s.server.isSome ∧ s.client.isSome := by
  unfold InfoShare.terminate
  split
  · next hserver => simp [noFault_error_iff, hserver]
  · next hserver hclient => simp [noFault_error_iff, hserver, hclient]
  · next hserver hclient => simp [noFault_ok, hserver, hclient]

theorem sendCommonInfo_noFault_iff (s : InfoShare) (info : CommonInfo) :
    NoFault (s.sendCommonInfo pb fc info) ↔ s.client.isSome ∨
      s.dictionary.commandToNumSequence info.message = none ∨
      s.dictionary.behaviorNameToNumSequence info.behaviorName = none := by
  unfold InfoShare.sendCommonInfo
  split
  · next command behaviorName hcommand hname =>
      cases hclient : s.client with
      | none => simp [noFault_error_iff, hcommand, hname]
      | some client =>
          simp only [Option.isSome_some, true_or, iff_true]
          split
          · exact noFault_ok _
          · exact noFault_ok _
  · next hnone =>
      refine iff_of_true ((noFault_error_iff _).mpr rfl) (Or.inr ?_)
      cases hcommand : s.dictionary.commandToNumSequence info.message with
      | none => exact Or.inl rfl
      | some command =>
          cases hname : s.dictionary.behaviorNameToNumSequence info.behaviorName with
          | none => exact Or.inr rfl
          | some name => exact absurd hname (hnone command name hcommand)

theorem getter_noFault_iff {β : Type} (zero : β) (read : OtherRobotInfomation → β)
    (s : InfoShare) (id : Int) :
    NoFault (s.getter zero read id) ↔ id = s.selfId ∨ id < 1 ∨ numPlayers < id ∨
      id ≤ s.robotDataList.length := by
  unfold InfoShare.getter
  split
  · next hskip => exact iff_of_true (noFault_ok _) (by tauto)
  · next hskip =>
      cases he : s.entryAt (id - 1) with
      | none =>
          have hout := entryAt_eq_none.mp he
          simp only [noFault_error_iff]
          refine ⟨?_, ?_⟩
          · intro h
            cases h
          · omega
      | some e =>
          obtain ⟨h0, hget⟩ := entryAt_eq_some.mp he
          obtain ⟨hlt, -⟩ := List.getElem?_eq_some_iff.mp hget
          exact iff_of_true (noFault_ok _) (by omega)

theorem getter_call_noFault_iff (g : Getter) (s : InfoShare) (id : Int) :
    NoFault (g.call s id) ↔ id = s.selfId ∨ id < 1 ∨ numPlayers < id ∨
      id ≤ s.robotDataList.length := by
  cases g <;> exact (noFault_map_iff _ _).trans (getter_noFault_iff _ _ s id)

theorem Setup.hasClient_of_hasServer {stage : Setup} (h : stage.hasServer = true) :
    stage.hasClient = true := by
  cases stage with
  | pending => cases h
  | taken => cases h
  | ran args stop =>
      cases stop with
      | robotData i => cases h
      | client => cases h
      | server => cases h
      | completed => rfl

/-- One operation faults exactly when it is not ready. -/
theorem Progress.noFault_iff (h : Progress d stage p) (op : Operation) :
    NoFault (lifeStep pb fc (some p) op) ↔ op.Ready d stage := by
  have hterminate : NoFault p.object.terminate ↔ stage.hasServer = true := by
    rw [terminate_noFault_iff, h.server, h.client]
    exact and_iff_left_of_imp Setup.hasClient_of_hasServer
  cases op with
  | otherSetup => exact iff_of_true (noFault_ok _) trivial
  | setup args stop clock => exact iff_of_true (noFault_ok _) trivial
  | changeColor color => exact iff_of_true (noFault_ok _) trivial
  | sendCommonInfo info =>
      simp only [lifeStep, Operation.Ready]
      rw [noFault_map_iff, sendCommonInfo_noFault_iff, h.client, h.dictionary]
  | get getter id =>
      simp only [lifeStep, Operation.Ready]
      rw [noFault_map_iff, getter_call_noFault_iff, h.selfId, h.entries]
  | terminate =>
      simp only [lifeStep, Operation.Ready]
      rw [noFault_map_iff, hterminate]
  | destroy =>
      simp only [lifeStep, Operation.Ready]
      rw [noFault_map_iff, hterminate]

/-- While there is an object, it is in the state the calls so far left it in. -/
def Recorded (d : SerializeStringByDict) (alreadySetup : Bool) (past : List Operation)
    (o : Option Process) : Prop :=
  ∀ p, o = some p → Progress d (.of alreadySetup past) p

theorem lifeRun_recorded {commandFile behaviorFile : Bytes} {robot : InfoShare}
    (hnew : InfoShare.new commandFile behaviorFile = some robot) {alreadySetup : Bool}
    {past : List Operation} {o : Option Process}
    (hrun : Lib.runs (lifeStep pb fc) (some ⟨alreadySetup, robot⟩) past = .ok o) :
    Recorded robot.dictionary alreadySetup past o := by
  have hstep : ∀ past o op o', Recorded robot.dictionary alreadySetup past o →
      lifeStep pb fc o op = .ok o' →
      Recorded robot.dictionary alreadySetup (past ++ [op]) o' := by
    intro past o op o' hpast hcall p' hp'
    rw [hp'] at hcall
    cases o with
    | none => cases hcall
    | some p =>
        rw [Setup.of, List.foldl_append]
        exact (hpast p rfl).step hcall
  have hstart : Recorded robot.dictionary alreadySetup [] (some ⟨alreadySetup, robot⟩) := by
    intro p' hp'
    cases hp'
    exact (Progress.new hnew alreadySetup)
  have hend : Recorded robot.dictionary alreadySetup ([] ++ past) o :=
    Lib.runs_induction hstep hstart hrun
  exact hend

/-- A sequence of operations on a new object is free of null dereferences and
of list accesses out of range exactly when each operation that still finds the
object is one its `setup` has prepared it for. -/
theorem lifecycle_safe_iff {commandFile behaviorFile : Bytes} {robot : InfoShare}
    (hnew : InfoShare.new commandFile behaviorFile = some robot) (alreadySetup : Bool)
    (operations : List Operation) :
    NoFault (Lib.runs (lifeStep pb fc) (some ⟨alreadySetup, robot⟩) operations) ↔
      ∀ past op rest, operations = past ++ op :: rest →
        (∃ p, Lib.runs (lifeStep pb fc) (some ⟨alreadySetup, robot⟩) past =
          .ok (some p)) →
        op.Ready robot.dictionary (.of alreadySetup past) := by
  refine ⟨?_, ?_⟩
  · intro h past op rest hsplit ⟨p, hpast⟩
    have hnofault : NoFault (lifeStep pb fc (some p) op) := by
      intro f hstop
      apply h
      rw [hsplit, Lib.runs_append_ok hpast, Lib.runs_cons_error hstop]
    exact ((lifeRun_recorded hnew hpast p rfl).noFault_iff op).mp hnofault
  · intro h f hrun
    obtain ⟨past, op, rest, o, hsplit, hpast, hstop⟩ := Lib.runs_error_split hrun
    cases o with
    | none => cases hstop
    | some p =>
        exact ((lifeRun_recorded hnew hpast p rfl).noFault_iff op).mpr
          (h past op rest hsplit ⟨p, hpast⟩) f hstop

/-- The arguments of an ordinary robot. -/
def sampleArgs : SetupArgs where
  modeSelect := broadcastMode
  selfId := 1
  ourColor := colorMagenta
  ipAddress := ascii "192.168.4.160"

theorem destroy_nullServer (h : p.object.server = none) :
    lifeStep pb fc (some p) .destroy = .error .nullServer := by
  rw [lifeStep, InfoShare.terminate, h]
  rfl

/-- The client's constructor throws, `setup` reports it, and the program ends
in the destructor. -/
theorem lifecycle_failedSetup :
    Lib.runs (lifeStep wire .wrapping) (some ⟨false, freshRobot⟩)
      [.setup sampleArgs .client fun _ => 0, .destroy] = .error .nullServer := by
  have hasserts : setupAsserts sampleArgs := by decide
  have hmode : modeAssert sampleArgs := by decide
  obtain ⟨s', hcall, hserver⟩ : ∃ s', freshRobot.setup sampleArgs .client (fun _ => 0)
      false = some (true, s') ∧ s'.server = none := by
    rw [InfoShare.setup, if_neg (by decide), if_neg (not_not.mpr hasserts)]
    exact ⟨_, if_pos hmode, rfl⟩
  have hsetup : lifeStep wire .wrapping (some ⟨false, freshRobot⟩)
      (.setup sampleArgs .client fun _ => 0) = .ok (some ⟨true, s'⟩) := by
    rw [lifeStep, hcall]
    rfl
  rw [Lib.runs_cons_ok hsetup]
  exact Lib.runs_cons_error (destroy_nullServer hserver) []

/-- With a `setup` that goes through the same program ends well. -/
theorem lifecycle_safe_setup :
    NoFault (Lib.runs (lifeStep wire .wrapping) (some ⟨false, freshRobot⟩)
      [.setup sampleArgs .completed fun _ => 0, .destroy]) := by
  refine (lifecycle_safe_iff freshRobot_new false _).mpr ?_
  intro past op rest hsplit _
  cases past with
  | nil =>
      obtain ⟨rfl, -⟩ := List.cons.inj hsplit
      trivial
  | cons first past =>
      obtain ⟨rfl, hrest⟩ := List.cons.inj hsplit
      cases past with
      | nil =>
          obtain ⟨rfl, -⟩ := List.cons.inj hrest
          rfl
      | cons second past =>
          obtain ⟨-, hnil⟩ := List.cons.inj hrest
          exact absurd hnil.symm (by simp)

end Playspace.Citbrains.InfoShare
