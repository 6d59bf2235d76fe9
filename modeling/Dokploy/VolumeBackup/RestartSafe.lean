import Dokploy.Foundation.Shell

namespace Dokploy
namespace VolumeBackup

open Foundation.Shell

/-!
# Volume backups that turn the service off

The script of a volume backup reads how the service runs, stops it, archives the
volume, starts the service again and uploads the archive.  A lock keeps two backups of
one service apart.

Every command of the host may fail, and stopping may fail after it has stopped
something.  A failed archive does not keep the service down.  A failed stop ends the
script at once, under errexit, and nothing is started then.
-/

abbrev Text := List Char

inductive Operation where
  /-- docker service inspect service --format "\x7b\x7b.Spec.Mode.Replicated.Replicas\x7d\x7d" -/
  | inspectReplicas (service : Text)
  /-- docker service update --replicas=0 service -/
  | scaleToZero (service : Text)
  /-- docker service update --replicas=$ACTUAL_REPLICAS --with-registry-auth service -/
  | scaleTo (replicas service : Text)
  /-- docker ps -q, with the labels of a project and of a service as filters -/
  | listContainers (project service : Text)
  /-- docker stop $ID -/
  | stopContainers (ids : Text)
  /-- docker start $ID -/
  | startContainers (ids : Text)
  /-- docker run, with tar in a container that mounts the volume and the directory of backups -/
  | archive (volumeName volumeBackupPath backupFileName : Text)
  /-- rclone copyto -/
  | copyTo (envVars : Text) (flags : List Text) (file destination : Text)
  | removeFile (path : Text)
  /-- command -v flock -/
  | lookUpFlock
  /-- exec 9>path -/
  | openLock (path : Text)
  /-- flock 9 -/
  | takeLock
  | makeDirectory (path : Text)
  | sleep
  /-- rm -rf path -/
  | removeDirectory (path : Text)
deriving DecidableEq

inductive Variable where
  | actualReplicas
  | id
  | lockPath
  | lockDir
  | backupStatus
  | restartStatus
deriving DecidableEq

/-- The effect of an operation: the containers that it has stopped, perhaps not all it was to stop. -/
abbrev Stopped := List Text

abbrev Script := Command Operation Variable

abbrev Event := Operation × Outcome Stopped

def createRestartSafeBackupCommand (stopCommand backupCommand startCommand uploadCommand : Script) : Script :=
  block [stopCommand,
    .errexit false,
    .subshell backupCommand,
    .saveStatus .backupStatus,
    .subshell (.seq (.errexit true) startCommand),
    .saveStatus .restartStatus,
    .errexit true,
    .ifFailed .backupStatus (block [.ifFailed .restartStatus .echo, .exitWith .backupStatus]),
    .ifFailed .restartStatus (.exitWith .restartStatus),
    uploadCommand]

/-- Waiting for the lock, the body, and the directory of the lock removed in the end. -/
def takeLock (lockPath : Text) : Script :=
  block [.errexit true,
    .assign .lockPath fun _ => lockPath,
    .echo,
    .ifRuns (fun _ => .lookUpFlock)
      (block [.run fun vars => .openLock (vars .lockPath), .run fun _ => .takeLock])
      (block [.assign .lockDir fun vars => vars .lockPath ++ ".dir".toList,
        .untilRuns (fun vars => .makeDirectory (vars .lockDir)) (block [.echo, .run fun _ => .sleep]),
        .trap fun vars => .removeDirectory (vars .lockDir)]),
    .echo]

def lockWrapper (lockPath : Text) (body : Script) : Script :=
  block [takeLock lockPath, body, .echo]

inductive ServiceType where
  | application
  | postgres
  | mysql
  | mariadb
  | mongo
  | redis
  | compose
  | libsql
deriving DecidableEq

inductive ComposeType where
  | dockerCompose
  | stack
deriving DecidableEq

structure Compose where
  appName : Text
  composeType : ComposeType

/-- A row of the table, with the names in the rows it refers to. -/
structure Row where
  serviceType : ServiceType
  volumeName : Text
  turnOff : Bool
  applicationName : Option Text
  composeName : Option Text
  serviceName : Option Text

/-- The names that the other parts of the program make for a backup. -/
structure Places where
  timestamp : Text
  volumeBackupPath : Text
  volumeBackupLockPath : Text
  rcloneFlags : List Text
  rcloneDestination : Text
  envVars : Text

def orUndefined : Option Text -> Text
  | some text => text
  | none => "undefined".toList

def orNull : Option Text -> Text
  | some text => text
  | none => "null".toList

def backupFileName (volumeBackup : Row) (places : Places) : Text :=
  volumeBackup.volumeName ++ "-".toList ++ places.timestamp ++ ".tar".toList

def archiveOf (volumeBackup : Row) (places : Places) : Operation :=
  .archive volumeBackup.volumeName places.volumeBackupPath (backupFileName volumeBackup places)

def archivePath (volumeBackup : Row) (places : Places) : Text :=
  places.volumeBackupPath ++ "/".toList ++ backupFileName volumeBackup places

def uploadOf (volumeBackup : Row) (places : Places) : Operation :=
  .copyTo places.envVars places.rcloneFlags (archivePath volumeBackup places) places.rcloneDestination

def removalOf (volumeBackup : Row) (places : Places) : Operation :=
  .removeFile (archivePath volumeBackup places)

def backupCommand (archive : Operation) : Script :=
  block [.errexit true, .echo, .echo, .echo, .echo, .echo, .run fun _ => archive, .echo]

def uploadCommand (upload removal : Operation) : Script :=
  block [.echo, .run fun _ => upload, .echo, .echo, .run fun _ => removal, .echo]

/-- What is stopped: an application or a service of a stack, or the containers of a compose service. -/
inductive Service where
  | application (appName : Text)
  | stack (serviceName : Text)
  | containers (project serviceName : Text)

namespace Service

def stopCommand : Service -> Script
  | .application appName =>
      block [.echo, .capture .actualReplicas fun _ => .inspectReplicas appName, .echo,
        .run fun _ => .scaleToZero appName]
  | .stack serviceName =>
      block [.echo, .echo, .capture .actualReplicas fun _ => .inspectReplicas serviceName, .echo,
        .run fun _ => .scaleToZero serviceName]
  | .containers project serviceName =>
      block [.echo, .capture .id fun _ => .listContainers project serviceName,
        .run fun vars => .stopContainers (vars .id)]

def startCommand : Service -> Script
  | .application appName => block [.echo, .run fun vars => .scaleTo (vars .actualReplicas) appName]
  | .stack serviceName => block [.echo, .run fun vars => .scaleTo (vars .actualReplicas) serviceName]
  | .containers _ _ => block [.echo, .run fun vars => .startContainers (vars .id), .echo]

end Service

/-- stackServiceName, and the name of the lock of a compose service -/
def serviceNameIn (appName : Text) (volumeBackup : Row) : Text :=
  appName ++ "_".toList ++ orNull volumeBackup.serviceName

def serviceLockId (volumeBackup : Row) : Text :=
  if volumeBackup.serviceType = .application then orUndefined volumeBackup.applicationName
  else serviceNameIn (orUndefined volumeBackup.composeName) volumeBackup

def serviceOf (volumeBackup : Row) (compose : Compose) : Option Service :=
  match volumeBackup.serviceType with
  | .application => some (.application (orUndefined volumeBackup.applicationName))
  | .compose =>
      match compose.composeType with
      | .stack => some (.stack (serviceNameIn compose.appName volumeBackup))
      | .dockerCompose => some (.containers compose.appName (orNull volumeBackup.serviceName))
  | _ => none

/-- The command for a row and the compose row that findComposeById has read. -/
def backupVolume (volumeBackup : Row) (compose : Compose) (places : Places) : Option Script :=
  let backup := backupCommand (archiveOf volumeBackup places)
  let upload := uploadCommand (uploadOf volumeBackup places) (removalOf volumeBackup places)
  if volumeBackup.turnOff = false then some (block [backup, upload])
  else
    (serviceOf volumeBackup compose).map fun service =>
      lockWrapper (places.volumeBackupLockPath ++ "-".toList ++ serviceLockId volumeBackup)
        (createRestartSafeBackupCommand service.stopCommand backup service.startCommand upload)

theorem backupVolume_of_turnOff {volumeBackup : Row} {compose : Compose} {places : Places} {service : Service}
    (turnOff : volumeBackup.turnOff = true) (isService : serviceOf volumeBackup compose = some service) :
    backupVolume volumeBackup compose places =
      some (lockWrapper (places.volumeBackupLockPath ++ "-".toList ++ serviceLockId volumeBackup)
        (createRestartSafeBackupCommand service.stopCommand (backupCommand (archiveOf volumeBackup places))
          service.startCommand (uploadCommand (uploadOf volumeBackup places) (removalOf volumeBackup places)))) := by
  simp [backupVolume, turnOff, isService]

namespace Service

def held : Service -> Variable
  | .application _ | .stack _ => .actualReplicas
  | .containers _ _ => .id

/-- Reading the replicas or the ids of a service. -/
def reading : Service -> Operation
  | .application appName => .inspectReplicas appName
  | .stack serviceName => .inspectReplicas serviceName
  | .containers project serviceName => .listContainers project serviceName

def stopping : Service -> Text -> Operation
  | .application appName, _ => .scaleToZero appName
  | .stack serviceName, _ => .scaleToZero serviceName
  | .containers _ _, ids => .stopContainers ids

def starting : Service -> Text -> Operation
  | .application appName, replicas => .scaleTo replicas appName
  | .stack serviceName, replicas => .scaleTo replicas serviceName
  | .containers _ _, ids => .startContainers ids

end Service

section Runs

variable {state : State Operation Variable Stopped} {result : Result Operation Variable Stopped}

/-- The three ends of a stop command.  What has been read stays in its variable. -/
inductive Stopping (service : Service) (state : State Operation Variable Stopped) :
    Result Operation Variable Stopped -> Prop where
  | unread {ended : State Operation Variable Stopped} (read : Outcome Stopped) : read.status ≠ 0 ->
      ended.trace = state.trace ++ [(service.reading, read)] -> ended.onExit = state.onExit ->
      ended.status = read.status -> Stopping service state (.exited ended)
  | failed {ended : State Operation Variable Stopped} (read stop : Outcome Stopped) : read.status = 0 -> stop.status ≠ 0 ->
      ended.trace = state.trace ++ [(service.reading, read), (service.stopping read.output, stop)] ->
      ended.onExit = state.onExit -> ended.status = stop.status -> Stopping service state (.exited ended)
  | stopped {middle : State Operation Variable Stopped} (read stop : Outcome Stopped) : read.status = 0 -> stop.status = 0 ->
      middle.trace = state.trace ++ [(service.reading, read), (service.stopping read.output, stop)] ->
      middle.onExit = state.onExit -> middle.vars service.held = read.output -> Stopping service state (.normal middle)

theorem stopping_of_eval (service : Service) (on : state.errexit = true) (eval : Eval service.stopCommand state result) :
    Stopping service state result := by
  cases service with
  | application name | stack name =>
    simp only [Service.stopCommand, block, eval_echo_seq] at eval
    rw [eval_capture_seq (by exact on)] at eval
    obtain ⟨read, ⟨succeeded, rest⟩ | ⟨failed, rfl⟩⟩ := eval
    · rw [eval_echo_seq, eval_run_of_on (by exact on)] at rest
      obtain ⟨stop, ⟨stopped, rfl⟩ | ⟨unstopped, rfl⟩⟩ := rest
      · exact .stopped read stop succeeded stopped (by simp [State.asked, State.succeed, Service.reading, Service.stopping])
          rfl (by simp [State.asked, State.succeed, Service.held])
      · exact .failed read stop succeeded unstopped
          (by simp [State.asked, State.succeed, Service.reading, Service.stopping]) rfl rfl
    · exact .unread read failed rfl rfl rfl
  | containers project serviceName =>
    simp only [Service.stopCommand, block, eval_echo_seq] at eval
    rw [eval_capture_seq (by exact on)] at eval
    obtain ⟨read, ⟨succeeded, rest⟩ | ⟨failed, rfl⟩⟩ := eval
    · rw [eval_run_of_on (by exact on)] at rest
      obtain ⟨stop, ⟨stopped, rfl⟩ | ⟨unstopped, rfl⟩⟩ := rest
      · exact .stopped read stop succeeded stopped (by simp [State.asked, State.succeed, Service.reading, Service.stopping])
          rfl (by simp [State.asked, State.succeed, Service.held])
      · exact .failed read stop succeeded unstopped
          (by simp [State.asked, State.succeed, Service.reading, Service.stopping]) rfl rfl
    · exact .unread read failed rfl rfl rfl

theorem archiving_of_eval (archive : Operation) (off : state.errexit = false)
    (eval : Eval (.subshell (backupCommand archive)) state result) :
    Exists fun outcome => result = .normal { state with trace := state.trace ++ [(archive, outcome)], status := outcome.status } := by
  obtain ⟨inner, trace, isInner, closes, rfl⟩ := (eval_subshell_of_off off).mp eval
  simp only [backupCommand, block, eval_echo_seq, eval_errexit_seq] at isInner
  obtain ⟨outcome, ⟨succeeded, rest⟩ | ⟨failed, rfl⟩⟩ := (eval_run_seq rfl).mp isInner
  · rw [eval_echo] at rest
    subst rest
    rw [(closes_iff rfl).mp closes]
    exact ⟨outcome, by rw [succeeded]; rfl⟩
  · rw [(closes_iff rfl).mp closes]
    exact ⟨outcome, rfl⟩

theorem starting_of_eval (service : Service) (off : state.errexit = false)
    (eval : Eval (.subshell (.seq (.errexit true) service.startCommand)) state result) :
    Exists fun outcome => result = .normal { state with
      trace := state.trace ++ [(service.starting (state.vars service.held), outcome)], status := outcome.status } := by
  obtain ⟨inner, trace, isInner, closes, rfl⟩ := (eval_subshell_of_off off).mp eval
  cases service with
  | application name | stack name =>
    simp only [Service.startCommand, block, eval_echo_seq, eval_errexit_seq] at isInner
    obtain ⟨outcome, ⟨succeeded, rfl⟩ | ⟨failed, rfl⟩⟩ := (eval_run_of_on rfl).mp isInner
    all_goals
      rw [(closes_iff rfl).mp closes]
      exact ⟨outcome, rfl⟩
  | containers project serviceName =>
    simp only [Service.startCommand, block, eval_echo_seq, eval_errexit_seq] at isInner
    obtain ⟨outcome, ⟨succeeded, rest⟩ | ⟨failed, rfl⟩⟩ := (eval_run_seq rfl).mp isInner
    · rw [eval_echo] at rest
      subst rest
      rw [(closes_iff rfl).mp closes]
      exact ⟨outcome, by rw [succeeded]; rfl⟩
    · rw [(closes_iff rfl).mp closes]
      exact ⟨outcome, rfl⟩

inductive Uploading (upload removal : Operation) (state : State Operation Variable Stopped) :
    Result Operation Variable Stopped -> Prop where
  | failed {ended : State Operation Variable Stopped} (copy : Outcome Stopped) : copy.status ≠ 0 ->
      ended.trace = state.trace ++ [(upload, copy)] -> ended.onExit = state.onExit ->
      ended.status = copy.status -> Uploading upload removal state (.exited ended)
  | left {ended : State Operation Variable Stopped} (copy remove : Outcome Stopped) : copy.status = 0 -> remove.status ≠ 0 ->
      ended.trace = state.trace ++ [(upload, copy), (removal, remove)] -> ended.onExit = state.onExit ->
      ended.status = remove.status -> Uploading upload removal state (.exited ended)
  | uploaded {middle : State Operation Variable Stopped} (copy remove : Outcome Stopped) :
      copy.status = 0 -> remove.status = 0 ->
      middle.trace = state.trace ++ [(upload, copy), (removal, remove)] -> middle.onExit = state.onExit ->
      Uploading upload removal state (.normal middle)

theorem uploading_of_eval (upload removal : Operation) (on : state.errexit = true)
    (eval : Eval (uploadCommand upload removal) state result) : Uploading upload removal state result := by
  simp only [uploadCommand, block, eval_echo_seq] at eval
  rw [eval_run_seq (by exact on)] at eval
  obtain ⟨copy, ⟨succeeded, rest⟩ | ⟨failed, rfl⟩⟩ := eval
  · simp only [eval_echo_seq] at rest
    rw [eval_run_seq (by exact on)] at rest
    obtain ⟨remove, ⟨removed, last⟩ | ⟨left, rfl⟩⟩ := rest
    · rw [eval_echo] at last
      subst last
      exact .uploaded copy remove succeeded removed (by simp [State.asked, State.succeed]) rfl
    · exact .left copy remove succeeded left (by simp [State.asked, State.succeed]) rfl rfl
  · exact .failed copy failed rfl rfl rfl

/-- What a backup of a service asks for between lock and end, and the status it ends with. -/
inductive Course (service : Service) (archive upload removal : Operation) : List Event -> Nat -> Prop where
  | unread (read : Outcome Stopped) : read.status ≠ 0 ->
      Course service archive upload removal [(service.reading, read)] read.status
  | notStopped (read stop : Outcome Stopped) : read.status = 0 -> stop.status ≠ 0 ->
      Course service archive upload removal
        [(service.reading, read), (service.stopping read.output, stop)] stop.status
  | notArchived (read stop tar start : Outcome Stopped) : read.status = 0 -> stop.status = 0 -> tar.status ≠ 0 ->
      Course service archive upload removal [(service.reading, read), (service.stopping read.output, stop),
        (archive, tar), (service.starting read.output, start)] tar.status
  | notStarted (read stop tar start : Outcome Stopped) : read.status = 0 -> stop.status = 0 -> tar.status = 0 ->
      start.status ≠ 0 ->
      Course service archive upload removal [(service.reading, read), (service.stopping read.output, stop),
        (archive, tar), (service.starting read.output, start)] start.status
  | notUploaded (read stop tar start copy : Outcome Stopped) : read.status = 0 -> stop.status = 0 -> tar.status = 0 ->
      start.status = 0 -> copy.status ≠ 0 ->
      Course service archive upload removal [(service.reading, read), (service.stopping read.output, stop),
        (archive, tar), (service.starting read.output, start), (upload, copy)] copy.status
  | notRemoved (read stop tar start copy remove : Outcome Stopped) : read.status = 0 -> stop.status = 0 ->
      tar.status = 0 -> start.status = 0 -> copy.status = 0 -> remove.status ≠ 0 ->
      Course service archive upload removal [(service.reading, read), (service.stopping read.output, stop),
        (archive, tar), (service.starting read.output, start), (upload, copy), (removal, remove)] remove.status
  | complete (read stop tar start copy remove : Outcome Stopped) : read.status = 0 -> stop.status = 0 ->
      tar.status = 0 -> start.status = 0 -> copy.status = 0 -> remove.status = 0 ->
      Course service archive upload removal [(service.reading, read), (service.stopping read.output, stop),
        (archive, tar), (service.starting read.output, start), (upload, copy), (removal, remove)] 0

/-- The status of a script in which nothing fails after a result. -/
def codeOf : Result Operation Variable Stopped -> Nat
  | .normal _ => 0
  | .exited ended => ended.status

theorem finishing_of_eval {upload : Script}
    (eval : Eval (block [.ifFailed .backupStatus (block [.ifFailed .restartStatus .echo, .exitWith .backupStatus]),
      .ifFailed .restartStatus (.exitWith .restartStatus), upload]) state result) :
    (state.codes .backupStatus ≠ 0 ∧
      result = .exited { state with status := state.codes .backupStatus }) ∨
    (state.codes .backupStatus = 0 ∧ state.codes .restartStatus ≠ 0 ∧
      result = .exited { state with status := state.codes .restartStatus }) ∨
    (state.codes .backupStatus = 0 ∧ state.codes .restartStatus = 0 ∧ Eval upload state.succeed.succeed result) := by
  simp only [block] at eval
  rcases eval_seq.mp eval with ⟨middle, first, rest⟩ | ⟨ended, first, rfl⟩
  · rcases eval_ifFailed.mp first with ⟨failed, reported⟩ | ⟨archived, same⟩
    · rcases eval_seq.mp reported with ⟨_, _, exits⟩ | ⟨_, _, same⟩
      · rw [eval_exitWith] at exits
        cases exits
      · cases same
    · cases same
      refine Or.inr ?_
      rcases eval_seq.mp rest with ⟨last, second, uploads⟩ | ⟨ended, second, rfl⟩
      · rcases eval_ifFailed.mp second with ⟨failed, exits⟩ | ⟨started, same⟩
        · rw [eval_exitWith] at exits
          cases exits
        · cases same
          exact Or.inr ⟨archived, started, uploads⟩
      · rcases eval_ifFailed.mp second with ⟨failed, exits⟩ | ⟨_, same⟩
        · rw [eval_exitWith] at exits
          exact Or.inl ⟨archived, failed, exits⟩
        · cases same
  · rcases eval_ifFailed.mp first with ⟨failed, reported⟩ | ⟨_, same⟩
    · refine Or.inl ⟨failed, ?_⟩
      rcases eval_seq.mp reported with ⟨told, reports, exits⟩ | ⟨_, reports, _⟩
      · rw [eval_exitWith] at exits
        rcases eval_ifFailed.mp reports with ⟨_, echoes⟩ | ⟨_, same⟩
        · rw [eval_echo] at echoes
          cases echoes
          exact exits
        · cases same
          exact exits
      · rcases eval_ifFailed.mp reports with ⟨_, echoes⟩ | ⟨_, same⟩
        · rw [eval_echo] at echoes
          cases echoes
        · cases same
    · cases same

theorem course_of_eval (service : Service) (archive upload removal : Operation) (on : state.errexit = true)
    (eval : Eval (createRestartSafeBackupCommand service.stopCommand (backupCommand archive) service.startCommand
      (uploadCommand upload removal)) state result) :
    Exists fun events => result.state.trace = state.trace ++ events ∧ result.state.onExit = state.onExit ∧
      Course service archive upload removal events (codeOf result) := by
  simp only [createRestartSafeBackupCommand, block] at eval
  rcases eval_seq.mp eval with ⟨middle, stops, rest⟩ | ⟨ended, stops, rfl⟩
  · cases stopping_of_eval service on stops with
    | stopped read stop readWell stopWell isTrace isTrap isHeld =>
    rw [eval_errexit_seq] at rest
    rcases eval_seq.mp rest with ⟨_, archives, rest⟩ | ⟨_, archives, _⟩
    · obtain ⟨tar, same⟩ := archiving_of_eval archive rfl archives
      cases same
      rw [eval_saveStatus_seq] at rest
      rcases eval_seq.mp rest with ⟨_, starts, rest⟩ | ⟨_, starts, _⟩
      · obtain ⟨start, same⟩ := starting_of_eval service rfl starts
        cases same
        rw [eval_saveStatus_seq, eval_errexit_seq] at rest
        rcases finishing_of_eval rest with ⟨failed, rfl⟩ | ⟨tarWell, failed, rfl⟩ | ⟨tarWell, startWell, uploads⟩
        · refine ⟨_, ?_, isTrap, .notArchived read stop tar start readWell stopWell failed⟩
          simp [Result.state, State.succeed, isTrace, isHeld]
        · refine ⟨_, ?_, isTrap, .notStarted read stop tar start readWell stopWell tarWell failed⟩
          simp [Result.state, State.succeed, isTrace, isHeld]
        · have startsAgain : service.starting (middle.vars service.held) = service.starting read.output := by rw [isHeld]
          cases uploading_of_eval upload removal rfl uploads with
          | @failed ended copy failed grown isLast isStatus =>
            have isCode : codeOf (.exited ended) = copy.status := isStatus
            rw [isCode]
            refine ⟨_, ?_, isLast.trans isTrap,
              .notUploaded read stop tar start copy readWell stopWell tarWell startWell failed⟩
            simp [Result.state, grown, State.succeed, isTrace, startsAgain]
          | @left ended copy remove copyWell failed grown isLast isStatus =>
            have isCode : codeOf (.exited ended) = remove.status := isStatus
            rw [isCode]
            refine ⟨_, ?_, isLast.trans isTrap,
              .notRemoved read stop tar start copy remove readWell stopWell tarWell startWell copyWell failed⟩
            simp [Result.state, grown, State.succeed, isTrace, startsAgain]
          | uploaded copy remove copyWell removeWell grown isLast =>
            refine ⟨_, ?_, isLast.trans isTrap,
              .complete read stop tar start copy remove readWell stopWell tarWell startWell copyWell removeWell⟩
            simp [Result.state, grown, State.succeed, isTrace, startsAgain]
      · obtain ⟨start, same⟩ := starting_of_eval service rfl starts
        cases same
    · obtain ⟨tar, same⟩ := archiving_of_eval archive rfl archives
      cases same
  · cases stopping_of_eval service on stops with
    | unread read failed isTrace isTrap isStatus =>
      have isCode : codeOf (.exited ended) = read.status := isStatus
      rw [isCode]
      exact ⟨_, isTrace, isTrap, .unread read failed⟩
    | failed read stop readWell failed isTrace isTrap isStatus =>
      have isCode : codeOf (.exited ended) = stop.status := isStatus
      rw [isCode]
      exact ⟨_, isTrace, isTrap, .notStopped read stop readWell failed⟩

def IsLocking : Operation -> Prop
  | .lookUpFlock | .openLock _ | .takeLock | .makeDirectory _ | .sleep | .removeDirectory _ => True
  | _ => False

theorem takeLock_asks (lockPath : Text) : (takeLock lockPath).Asks IsLocking := by
  simp [takeLock, block, Command.Asks, IsLocking]

theorem locking_of_eval {lockPath : Text} (eval : Eval (takeLock lockPath) .fresh result) :
    (Grows IsLocking [] result.state.trace ∧ result.state.Leaves IsLocking) ∧ result.Kept true := by
  refine ⟨eval.grows (takeLock_asks lockPath) (by simp [State.Leaves, State.fresh]), ?_⟩
  simp only [takeLock, block, eval_errexit_seq] at eval
  exact eval.kept (by simp [Command.Steady])

end Runs

/-- What a script asks for, the lock left out, and its status: nothing and a failure, or a course. -/
theorem course_of_ends (service : Service) (archive upload removal : Operation) {lockPath : Text} {trace : List Event} {status : Nat}
    (ends : Ends (lockWrapper lockPath (createRestartSafeBackupCommand service.stopCommand (backupCommand archive)
      service.startCommand (uploadCommand upload removal))) trace status) :
    Exists fun before => Exists fun events => Exists fun after => trace = before ++ events ++ after ∧
      (forall entry, entry ∈ before -> IsLocking entry.1) ∧ (forall entry, entry ∈ after -> IsLocking entry.1) ∧
        ((events = [] ∧ status ≠ 0) ∨ Course service archive upload removal events status) := by
  obtain ⟨eval, closes⟩ := ends
  simp only [lockWrapper, block] at eval
  rcases eval_seq.mp eval with ⟨locked, locks, rest⟩ | ⟨ended, locks, rfl⟩
  · obtain ⟨⟨⟨before, isBefore, locking⟩, leaves⟩, on, _⟩ := locking_of_eval locks
    have isTrace : locked.trace = before := by simpa [Result.state] using isBefore
    rcases eval_seq.mp rest with ⟨middle, runs, echoes⟩ | ⟨ended, runs, rfl⟩
    · obtain ⟨events, grown, isTrap, course⟩ := course_of_eval service archive upload removal on runs
      rw [eval_echo] at echoes
      subst echoes
      have leavesLock : middle.Leaves IsLocking := fun op isOp => leaves op (isTrap ▸ isOp)
      obtain ⟨after, isAfter, releasing⟩ := closes.grows leavesLock
      have isBody : middle.trace = before ++ events := isTrace ▸ grown
      refine ⟨before, events, after, ?_, locking, releasing, Or.inr course⟩
      rw [isAfter]
      exact congrArg (· ++ after) isBody
    · obtain ⟨events, grown, isTrap, course⟩ := course_of_eval service archive upload removal on runs
      have leavesLock : ended.Leaves IsLocking := fun op isOp => leaves op (isTrap ▸ isOp)
      obtain ⟨after, isAfter, releasing⟩ := closes.grows leavesLock
      have isBody : ended.trace = before ++ events := isTrace ▸ grown
      refine ⟨before, events, after, ?_, locking, releasing, Or.inr course⟩
      rw [isAfter]
      exact congrArg (· ++ after) isBody
  · obtain ⟨⟨⟨before, isBefore, locking⟩, leaves⟩, _, failed⟩ := locking_of_eval locks
    obtain ⟨after, isAfter, releasing⟩ := closes.grows leaves
    exact ⟨before, [], after, by rw [isAfter, isBefore]; simp, locking, releasing, Or.inl ⟨rfl, failed ended rfl⟩⟩

/-- The service is stopped by an operation. -/
def Service.Stops (service : Service) (operation : Operation) : Prop :=
  Exists fun value => operation = service.stopping value

/-- Whatever has been stopped is started again as it was read before, and a run that ends
with zero has done everything. -/
structure GivesBack (service : Service) (archive upload removal : Operation) (trace : List Event) (status : Nat) : Prop where
  restarted : forall stop, stop ∈ trace -> service.Stops stop.1 -> stop.2.effect ≠ [] -> Exists fun read => Exists fun start =>
    stop.1 = service.stopping read.output ∧
      [(service.reading, read), stop, (service.starting read.output, start)].Sublist trace
  succeeded : status = 0 -> Exists fun read => Exists fun stop => Exists fun tar => Exists fun start =>
    Exists fun copy => Exists fun remove =>
      [(service.reading, read), (service.stopping read.output, stop), (archive, tar),
        (service.starting read.output, start), (upload, copy), (removal, remove)].Sublist trace ∧
      read.status = 0 ∧ stop.status = 0 ∧ tar.status = 0 ∧ start.status = 0 ∧ copy.status = 0 ∧ remove.status = 0

/-- A stop that has stopped something has not failed. -/
def StopsCleanly (service : Service) (trace : List Event) : Prop :=
  forall stop, stop ∈ trace -> service.Stops stop.1 -> stop.2.effect ≠ [] -> stop.2.status = 0

section Kinds

variable (service : Service) (value : Text)

theorem not_stops_reading : ¬ service.Stops service.reading := by
  rintro ⟨value, same⟩
  cases service <;> cases same

theorem not_stops_starting : ¬ service.Stops (service.starting value) := by
  rintro ⟨value, same⟩
  cases service <;> cases same

theorem not_locking_starting : ¬ IsLocking (service.starting value) := by
  cases service <;> exact id

theorem starting_ne_reading : service.starting value ≠ service.reading := by
  cases service <;> exact nofun

theorem not_locking_of_stops {operation : Operation} (stops : service.Stops operation) : ¬ IsLocking operation := by
  obtain ⟨value, rfl⟩ := stops
  cases service <;> exact id

/-- Archive, upload and removal are none of the operations on a service. -/
def IsTransfer : Operation -> Prop
  | .archive _ _ _ | .copyTo _ _ _ _ | .removeFile _ => True
  | _ => False

theorem not_stops_transfer {operation : Operation} (transfer : IsTransfer operation) : ¬ service.Stops operation := by
  rintro ⟨value, rfl⟩
  cases service <;> exact transfer

end Kinds

section Courses

variable {service : Service} {archive upload removal : Operation} {events : List Event} {status : Nat}

theorem Course.stop_mem (course : Course service archive upload removal events status) (isArchive : IsTransfer archive)
    (isUpload : IsTransfer upload) (isRemoval : IsTransfer removal) {stop : Event} (present : stop ∈ events)
    (stops : service.Stops stop.1) : Exists fun read => stop.1 = service.stopping read.output ∧
      ((stop.2.status = 0 ∧ Exists fun start =>
          [(service.reading, read), stop, (service.starting read.output, start)].Sublist events) ∨
        (stop.2.status ≠ 0 ∧ events = [(service.reading, read), stop])) := by
  have other {operation : Operation} {outcome : Outcome Stopped} (same : stop = (operation, outcome))
      (isOther : ¬ service.Stops operation) : False := by
    rw [same] at stops
    exact isOther stops
  have reading := not_stops_reading service
  have starting := not_stops_starting service
  have archiving := not_stops_transfer service isArchive
  have uploading := not_stops_transfer service isUpload
  have removing := not_stops_transfer service isRemoval
  cases course with
  | unread read failed =>
    rw [List.mem_singleton] at present
    exact (other present reading).elim
  | notStopped read stopped readWell failed =>
    simp only [List.mem_cons, List.not_mem_nil, or_false] at present
    rcases present with same | rfl
    · exact (other same reading).elim
    · exact ⟨read, rfl, Or.inr ⟨failed, rfl⟩⟩
  | notArchived read stopped tar start readWell stopWell | notStarted read stopped tar start readWell stopWell =>
    simp only [List.mem_cons, List.not_mem_nil, or_false] at present
    rcases present with same | rfl | same | same
    · exact (other same reading).elim
    · exact ⟨read, rfl, Or.inl ⟨stopWell, start, by simp⟩⟩
    · exact (other same archiving).elim
    · exact (other same (starting _)).elim
  | notUploaded read stopped tar start copy readWell stopWell =>
    simp only [List.mem_cons, List.not_mem_nil, or_false] at present
    rcases present with same | rfl | same | same | same
    · exact (other same reading).elim
    · exact ⟨read, rfl, Or.inl ⟨stopWell, start, by simp⟩⟩
    · exact (other same archiving).elim
    · exact (other same (starting _)).elim
    · exact (other same uploading).elim
  | notRemoved read stopped tar start copy remove readWell stopWell
  | complete read stopped tar start copy remove readWell stopWell =>
    simp only [List.mem_cons, List.not_mem_nil, or_false] at present
    rcases present with same | rfl | same | same | same | same
    · exact (other same reading).elim
    · exact ⟨read, rfl, Or.inl ⟨stopWell, start, by simp⟩⟩
    · exact (other same archiving).elim
    · exact (other same (starting _)).elim
    · exact (other same uploading).elim
    · exact (other same removing).elim

theorem Course.of_zero (course : Course service archive upload removal events status) (zero : status = 0) :
    Exists fun read => Exists fun stop => Exists fun tar => Exists fun start => Exists fun copy => Exists fun remove =>
      events = [(service.reading, read), (service.stopping read.output, stop), (archive, tar),
        (service.starting read.output, start), (upload, copy), (removal, remove)] ∧
      read.status = 0 ∧ stop.status = 0 ∧ tar.status = 0 ∧ start.status = 0 ∧ copy.status = 0 ∧ remove.status = 0 := by
  cases course with
  | unread _ failed | notStopped _ _ _ failed | notArchived _ _ _ _ _ _ failed | notStarted _ _ _ _ _ _ _ failed
  | notUploaded _ _ _ _ _ _ _ _ _ failed | notRemoved _ _ _ _ _ _ _ _ _ _ _ failed => exact (failed zero).elim
  | complete read stop tar start copy remove readWell stopWell tarWell startWell copyWell removeWell =>
    exact ⟨read, stop, tar, start, copy, remove, rfl, readWell, stopWell, tarWell, startWell, copyWell, removeWell⟩

end Courses

/-- A backup gives the service back exactly when stopping has not failed after it stopped something. -/
theorem givesBack_iff_stopsCleanly (volumeBackup : Row) (compose : Compose) (places : Places) (service : Service)
    (script : Script) (trace : List Event) (status : Nat) (turnOff : volumeBackup.turnOff = true)
    (isService : serviceOf volumeBackup compose = some service)
    (built : backupVolume volumeBackup compose places = some script) (ends : Ends script trace status) :
    GivesBack service (archiveOf volumeBackup places) (uploadOf volumeBackup places) (removalOf volumeBackup places) trace status <->
      StopsCleanly service trace := by
  rw [backupVolume_of_turnOff turnOff isService, Option.some.injEq] at built
  subst built
  obtain ⟨before, events, after, rfl, locking, releasing, ended⟩ := course_of_ends service _ _ _ ends
  have within : events.Sublist (before ++ events ++ after) :=
    (List.sublist_append_right before events).trans (List.sublist_append_left _ after)
  -- An operation that is no matter of the lock is one of the course.
  have inside {entry : Event} (present : entry ∈ before ++ events ++ after) (isOther : ¬ IsLocking entry.1) : entry ∈ events := by
    rcases List.mem_append.mp present with among | among
    · rcases List.mem_append.mp among with among | among
      · exact (isOther (locking entry among)).elim
      · exact among
    · exact (isOther (releasing entry among)).elim
  constructor
  · intro gives stop present stops acted
    have among := inside present (not_locking_of_stops service stops)
    rcases ended with ⟨rfl, _⟩ | course
    · cases among
    · obtain ⟨read, isStop, ⟨stopWell, _⟩ | ⟨failed, rfl⟩⟩ := course.stop_mem trivial trivial trivial among stops
      · exact stopWell
      · obtain ⟨value, start, _, isSublist⟩ := gives.restarted stop present stops acted
        have started : (service.starting value.output, start) ∈ before ++ [(service.reading, read), stop] ++ after :=
          isSublist.subset (by simp)
        have isStart := inside started (not_locking_starting service value.output)
        simp only [List.mem_cons, List.not_mem_nil, or_false] at isStart
        rcases isStart with same | same
        · exact (starting_ne_reading service _ (congrArg Prod.fst same)).elim
        · rw [← same] at stops
          exact (not_stops_starting service _ stops).elim
  · intro cleanly
    constructor
    · intro stop present stops acted
      have among := inside present (not_locking_of_stops service stops)
      rcases ended with ⟨rfl, _⟩ | course
      · cases among
      · obtain ⟨read, isStop, ⟨_, start, isSublist⟩ | ⟨failed, _⟩⟩ := course.stop_mem trivial trivial trivial among stops
        · exact ⟨read, start, isStop, isSublist.trans within⟩
        · exact (failed (cleanly stop present stops acted)).elim
    · intro zero
      rcases ended with ⟨_, failed⟩ | course
      · exact (failed zero).elim
      · obtain ⟨read, stop, tar, start, copy, remove, rfl, well⟩ := course.of_zero zero
        exact ⟨read, stop, tar, start, copy, remove, within, well⟩

def exampleRow : Row where
  serviceType := .application
  volumeName := "data".toList
  turnOff := true
  applicationName := some "app".toList
  composeName := none
  serviceName := none

def exampleCompose : Compose := ⟨[], .dockerCompose⟩

def examplePlaces : Places where
  timestamp := "2026".toList
  volumeBackupPath := "/backups".toList
  volumeBackupLockPath := "/lock".toList
  rcloneFlags := []
  rcloneDestination := ":s3:bucket".toList
  envVars := []

def exampleTrace : List Event :=
  [(.lookUpFlock, ⟨0, [], []⟩), (.openLock "/lock-app".toList, ⟨0, [], []⟩), (.takeLock, ⟨0, [], []⟩),
    (.inspectReplicas "app".toList, ⟨0, "2".toList, []⟩), (.scaleToZero "app".toList, ⟨1, [], ["c1".toList]⟩)]

def exampleLocked : State Operation Variable Stopped where
  vars := Function.update (fun _ => []) .lockPath "/lock-app".toList
  codes := fun _ => 0
  errexit := true
  status := 0
  onExit := none
  trace := exampleTrace.take 3

def exampleEnded : State Operation Variable Stopped where
  vars := Function.update exampleLocked.vars .actualReplicas "2".toList
  codes := fun _ => 0
  errexit := true
  status := 1
  onExit := none
  trace := exampleTrace

theorem exampleLocked_of_takeLock : Eval (takeLock "/lock-app".toList) .fresh (.normal exampleLocked) := by
  have echoes : Eval (block [.echo]) exampleLocked (.normal exampleLocked) := .echo _
  refine .seq (.errexit _ _) (.seq (.assign _ _ _) (.seq (.echo _) (.seq (.ifRuns ⟨0, [], []⟩ rfl ?_) echoes)))
  refine (eval_run_seq rfl).mpr ⟨⟨0, [], []⟩, Or.inl ⟨rfl, ?_⟩⟩
  exact (eval_run_of_on rfl).mpr ⟨⟨0, [], []⟩, Or.inl ⟨rfl, rfl⟩⟩

theorem exampleEnded_of_stop :
    Eval (Service.application "app".toList).stopCommand exampleLocked (.exited exampleEnded) := by
  refine .seq (.echo _) ((eval_capture_seq rfl).mpr ⟨⟨0, "2".toList, []⟩, Or.inl ⟨rfl, .seq (.echo _) ?_⟩⟩)
  exact (eval_run_of_on rfl).mpr ⟨⟨1, [], ["c1".toList]⟩, Or.inr ⟨nofun, rfl⟩⟩

theorem exampleTrace_ends : Exists fun script =>
    backupVolume exampleRow exampleCompose examplePlaces = some script ∧ Ends script exampleTrace 1 := by
  have closes : Closes exampleEnded exampleTrace := .plain rfl
  exact ⟨_, rfl, .intro (.seq exampleLocked_of_takeLock (.seqExit (.seqExit exampleEnded_of_stop))) closes⟩

theorem exampleTrace_keeps_down : ¬ GivesBack (.application "app".toList) (archiveOf exampleRow examplePlaces)
    (uploadOf exampleRow examplePlaces) (removalOf exampleRow examplePlaces) exampleTrace 1 := by
  obtain ⟨script, built, ends⟩ := exampleTrace_ends
  rw [givesBack_iff_stopsCleanly exampleRow exampleCompose examplePlaces (.application "app".toList) script exampleTrace 1
    rfl rfl built ends]
  intro cleanly
  have well := cleanly (.scaleToZero "app".toList, ⟨1, [], ["c1".toList]⟩) (by simp [exampleTrace]) ⟨[], rfl⟩ nofun
  cases well

/-- The script ends with the failed stop, and what was stopped stays down. -/
theorem stopped_and_left : ¬ forall (volumeBackup : Row) (compose : Compose) (places : Places) (service : Service)
    (script : Script) (trace : List Event) (status : Nat), volumeBackup.turnOff = true ->
    serviceOf volumeBackup compose = some service -> backupVolume volumeBackup compose places = some script ->
    Ends script trace status ->
    GivesBack service (archiveOf volumeBackup places) (uploadOf volumeBackup places) (removalOf volumeBackup places) trace status := by
  intro always
  obtain ⟨script, built, ends⟩ := exampleTrace_ends
  obtain ⟨read, start, _, isSublist⟩ := (always exampleRow exampleCompose examplePlaces (.application "app".toList) script
    exampleTrace 1 rfl rfl built ends).restarted (.scaleToZero "app".toList, ⟨1, [], ["c1".toList]⟩) (by simp [exampleTrace])
      ⟨[], rfl⟩ nofun
  have started := isSublist.subset (List.mem_cons_of_mem _ (List.mem_cons_of_mem _ (List.mem_singleton_self _)))
  simp [exampleTrace, Service.starting] at started

end VolumeBackup
end Dokploy
