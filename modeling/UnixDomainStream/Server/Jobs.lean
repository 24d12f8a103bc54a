import UnixDomainStream.Server.State

/-!
# The dispatcher jobs of a server

Each job is one effect that the I/O thread can observe, with the effects still to
come as the jobs in front of the queue.
-/

namespace UnixDomainStream.Server

open Library

abbrev Effect := JobOutput Handler Job Event

/-- The slots connected in `handle_accepted_socket`. -/
def acceptedSlot (id : Nat) (credentials : PeerCredentials) (token : Nat) : Signal → Effect
  | .ready => { jobs := [.notify token (.ready id credentials)] }
  | .received buffer => { jobs := [.received id buffer] }
  | .requestReceived requestId buffer => { jobs := [.requestReceived id requestId buffer] }
  | .responseReceived requestId buffer => { posts := [.responseReceived id requestId buffer] }
  | .healthCheckResponseReceived => {}
  | .errorOccurred errorCode =>
      { posts := [.errorOccurred id errorCode], next := [.enqueuePeerErrorOccurred id errorCode] }
  | .closed => { posts := [.closed id], next := [.enqueuePeerClosed id] }

/-- The slots connected in `socket_path_health_check`. -/
def healthCheckSlot (scope : NotificationScope) (probe : Probe) (signal : Signal) : Effect :=
  if scope.isCurrent probe.token then
    match signal with
    | .healthCheckResponseReceived => { posts := [.healthCheckResponse probe] }
    | .errorOccurred errorCode => { posts := [.healthCheckFailed probe errorCode] }
    | .closed => { posts := [.healthCheckFailed probe .eof] }
    | _ => {}
  else {}

def slot (scope : NotificationScope) : Slots → Signal → Effect
  | .accepted id credentials token, signal => acceptedSlot id credentials token signal
  | .healthCheck probe, signal => healthCheckSlot scope probe signal

/-- The functions given to `notification_scope_.enqueue`; `verdict` is the
result of `verify_peer_`. -/
def notify (dispatcher : Dispatcher) (verdict : Bool) : Notice → Dispatcher × Effect
  | .bound attempt => (dispatcher, { events := [.bound attempt], next := [.startHealthCheckTimer] })
  | .bindFailed attempt errorCode =>
      (dispatcher, { events := [.bindFailed attempt errorCode], next := [.scheduleBindRetry] })
  | .closed attempt => (dispatcher, { events := [.closed attempt], next := [.scheduleBindRetry] })
  | .ready id credentials =>
      if verdict then
        ({ dispatcher with exposedPeerIds := insert id dispatcher.exposedPeerIds },
          { events := [.verifyPeer id credentials true, .peerConnected id credentials] })
      else
        (dispatcher,
          { events := [.verifyPeer id credentials false], posts := [.closePeer id] })

/-- A notification for an exposed peer only. -/
def ifExposed (dispatcher : Dispatcher) (id : Nat) (event : Event) : Dispatcher × Effect :=
  (dispatcher, { events := if id ∈ dispatcher.exposedPeerIds then [event] else [] })

/-- Run one job. -/
def perform (dispatcher : Dispatcher) (job : Job) (verdict : Bool) : Dispatcher × Effect :=
  match job with
  | .start =>
      ({ dispatcher with notificationScope := dispatcher.notificationScope.start },
        { next := [.bind] })
  | .bind => (dispatcher, { posts := [.bind dispatcher.notificationScope.capture] })
  | .stop =>
      ({ dispatcher with notificationScope := dispatcher.notificationScope.halt },
        { next := [.invalidateScope, .cancelBindRetry, .stopHealthCheckTimer,
            .clearExposedPeerIds, .postStop] })
  | .invalidateScope =>
      ({ dispatcher with notificationScope := dispatcher.notificationScope.invalidate }, {})
  | .cancelBindRetry => (dispatcher, { jobs := [.bindRetryCancelled] })
  | .stopHealthCheckTimer => (dispatcher, { jobs := [.healthCheckTimerStopped] })
  | .clearExposedPeerIds => ({ dispatcher with exposedPeerIds := ∅ }, {})
  | .postStop => (dispatcher, { posts := [.stop] })
  | .notify token notice =>
      if dispatcher.notificationScope.isCurrent token then notify dispatcher verdict notice
      else (dispatcher, {})
  | .startHealthCheckTimer =>
      if dispatcher.notificationScope.running then
        (dispatcher, { jobs := [.healthCheckTimerStarted] })
      else (dispatcher, {})
  | .scheduleBindRetry =>
      (dispatcher, { jobs := [.healthCheckTimerStopped], next := [.debounceBindRetry] })
  | .debounceBindRetry =>
      if dispatcher.notificationScope.running then
        (dispatcher, { jobs := [.bindRetryDebounced] })
      else (dispatcher, {})
  | .signal slots signal => (dispatcher, slot dispatcher.notificationScope slots signal)
  | .enqueuePeerErrorOccurred id errorCode =>
      (dispatcher, { jobs := [.peerErrorOccurred id errorCode] })
  | .enqueuePeerClosed id => (dispatcher, { jobs := [.peerClosed id] })
  | .received id buffer => ifExposed dispatcher id (.received id buffer)
  | .requestReceived id requestId buffer =>
      ifExposed dispatcher id (.requestReceived id requestId buffer)
  | .peerErrorOccurred id errorCode => ifExposed dispatcher id (.peerErrorOccurred id errorCode)
  | .peerClosed id =>
      ({ dispatcher with exposedPeerIds := dispatcher.exposedPeerIds.erase id },
        { events := if id ∈ dispatcher.exposedPeerIds then [.peerClosed id] else [] })
  | .requestCallback call errorCode data =>
      (dispatcher, { events := [.requestCallback call errorCode data] })
  | .bindRetryDebounced =>
      let task := dispatcher.bindRetryTask.advance
      ({ dispatcher with bindRetryTask := task }, { delayed := [.bindRetry task.generation] })
  | .bindRetryCancelled =>
      ({ dispatcher with bindRetryTask := dispatcher.bindRetryTask.advance }, {})
  | .bindRetry generation =>
      if dispatcher.bindRetryTask.generation = generation ∧
          dispatcher.notificationScope.running then
        (dispatcher, { next := [.bind] })
      else (dispatcher, {})
  | .healthCheckTimerStarted =>
      let timer := dispatcher.socketPathHealthCheckTimer.started
      ({ dispatcher with socketPathHealthCheckTimer := timer },
        { next := [.healthCheckTimerCall timer.currentFunctionId] })
  | .healthCheckTimerStopped =>
      ({ dispatcher with
        socketPathHealthCheckTimer := dispatcher.socketPathHealthCheckTimer.stopped }, {})
  | .healthCheckTimerCall functionId =>
      let timer := dispatcher.socketPathHealthCheckTimer
      if timer.currentFunctionId = functionId then
        (dispatcher,
          { jobs := if timer.function then [.socketPathHealthCheck] else []
            delayed := [.healthCheckTimerCall functionId] })
      else (dispatcher, {})
  | .socketPathHealthCheck =>
      (dispatcher,
        { posts := [.socketPathHealthCheck dispatcher.notificationScope.capture] })

end UnixDomainStream.Server
