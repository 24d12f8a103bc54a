import UnixDomainStream.Client.State

/-!
# The dispatcher jobs of a client

Each job is one effect that the I/O thread can observe, with the effects still to come as
the jobs in front of the queue.
-/

namespace UnixDomainStream.Client

open Library

abbrev Effect := JobOutput Handler Job Event

/-- The slots connected in `handle_connected_socket`, each of which posts a handler. -/
def slot (attempt token : Nat) : Signal → Effect
  | .received buffer => { posts := [.received attempt buffer token] }
  | .requestReceived requestId buffer =>
      { posts := [.requestReceived attempt requestId buffer token] }
  | .responseReceived requestId buffer => { posts := [.responseReceived attempt requestId buffer] }
  | .errorOccurred errorCode => { posts := [.errorOccurred attempt errorCode token] }
  | .closed => { posts := [.closed attempt token] }
  | .ready | .healthCheckResponseReceived => {}

/-- The functions given to `notification_scope_.enqueue`; `verdict` is the result of
`verify_peer_`. -/
def notify (verdict : Bool) : Notice → Effect
  | .connectFailed attempt errorCode =>
      { events := [.connectFailed attempt errorCode], next := [.scheduleReconnect] }
  | .verifyPeer attempt credentials token =>
      { events := [.verifyPeer attempt credentials verdict]
        posts := [.handleConnectedSocket attempt credentials verdict token] }
  | .peerVerificationFailed attempt credentials =>
      { events := [.peerVerificationFailed attempt credentials], next := [.scheduleReconnect] }
  | .connected attempt credentials => { events := [.connected attempt credentials] }
  | .received attempt buffer => { events := [.received attempt buffer] }
  | .requestReceived attempt requestId buffer =>
      { events := [.requestReceived attempt requestId buffer] }
  | .errorOccurred attempt errorCode => { events := [.errorOccurred attempt errorCode] }
  | .closed attempt => { events := [.closed attempt], next := [.scheduleReconnect] }
  | .scheduleReconnect => { next := [.scheduleReconnect] }

/-- Run one job. -/
def perform (dispatcher : Dispatcher) (job : Job) (verdict : Bool) : Dispatcher × Effect :=
  match job with
  | .start =>
      ({ dispatcher with notificationScope := dispatcher.notificationScope.start },
        { next := [.connect] })
  | .connect => (dispatcher, { posts := [.connect dispatcher.notificationScope.capture] })
  | .stop =>
      ({ dispatcher with notificationScope := dispatcher.notificationScope.halt },
        { next := [.invalidateScope, .cancelReconnect, .postStop] })
  | .invalidateConnection =>
      ({ dispatcher with notificationScope := dispatcher.notificationScope.invalidate },
        { next := [.cancelReconnect, .postInvalidateConnection] })
  | .invalidateScope =>
      ({ dispatcher with notificationScope := dispatcher.notificationScope.invalidate }, {})
  | .cancelReconnect => (dispatcher, { jobs := [.reconnectCancelled] })
  | .postStop => (dispatcher, { posts := [.stop] })
  | .postInvalidateConnection =>
      (dispatcher, { posts := [.invalidateConnection dispatcher.notificationScope.capture] })
  | .notify token notice =>
      (dispatcher,
        if dispatcher.notificationScope.isCurrent token then notify verdict notice else {})
  | .scheduleReconnect =>
      (dispatcher,
        { jobs := if dispatcher.notificationScope.running then [.reconnectDebounced] else [] })
  | .reconnectDebounced =>
      let task := dispatcher.reconnectTask.advance
      ({ dispatcher with reconnectTask := task }, { delayed := [.reconnect task.generation] })
  | .reconnectCancelled =>
      ({ dispatcher with reconnectTask := dispatcher.reconnectTask.advance }, {})
  | .reconnect generation =>
      (dispatcher,
        { next :=
            if dispatcher.reconnectTask.generation = generation ∧
                dispatcher.notificationScope.running then [.connect] else [] })
  | .signal attempt token signal => (dispatcher, slot attempt token signal)
  | .requestCallback call errorCode data =>
      (dispatcher, { events := [.requestCallback call errorCode data] })

end UnixDomainStream.Client
