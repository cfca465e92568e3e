import RouteDispatch.Task.Code

/-!
# Listeners

A listener is told when a call starts, and gives the call its number, and then once how the call
ended.  The reporting listener numbers the calls from one and writes what it is told to the log.
-/

namespace RouteDispatch

structure Listener where
  onStart : CallView → Code .number
  onSucceed : CallView → Json → Code .nothing
  onFail : CallView → CallError → Code .nothing

def Listener.reporting : Listener :=
  { onStart := fun call => .tick fun id =>
      .log (.news (.started id call.method call.path call.version)) (.done id)
    onSucceed := fun call _ =>
      .log (.news (.succeeded call.id call.routeName)) .skip
    onFail := fun call error =>
      .log (.news (.failed call.id call.routeName error)) .skip }

end RouteDispatch
