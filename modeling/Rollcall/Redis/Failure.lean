/-!
Failures of the shared store's client.

A failure has a kind; the client's own failures have a description and perhaps a detail, a reply
that reports an error has a code.
-/

namespace Rollcall.Redis

inductive FailureKind where
  | responseError
  | typeError
  | execAbortError
  | busyLoadingError
  | noScriptError
  | moved
  | ask
  | tryAgain
  | clusterDown
  | crossSlot
  | masterDown
  | readOnly
  | notBusy
  | extensionError
  | invalidClientConfig
  | clientError
  | ioError
deriving DecidableEq, Repr, Inhabited

def FailureKind.name : FailureKind → String
  | .responseError => "ResponseError"
  | .typeError => "TypeError"
  | .execAbortError => "ExecAbortError"
  | .busyLoadingError => "BusyLoadingError"
  | .noScriptError => "NoScriptError"
  | .moved => "Moved"
  | .ask => "Ask"
  | .tryAgain => "TryAgain"
  | .clusterDown => "ClusterDown"
  | .crossSlot => "CrossSlot"
  | .masterDown => "MasterDown"
  | .readOnly => "ReadOnly"
  | .notBusy => "NotBusy"
  | .extensionError => "ExtensionError"
  | .invalidClientConfig => "InvalidClientConfig"
  | .clientError => "ClientError"
  | .ioError => "IoError"

inductive Failure where
  /-- A failure of the client itself. -/
  | described (kind : FailureKind) (description : String) (detail : Option String)
  /-- A reply that could not be read as what was asked for. -/
  | mistyped
  /-- An error reply with its code. -/
  | reported (kind : FailureKind) (code : String) (detail : Option String)
  /-- The connection could not be made or was lost. -/
  | disconnected
deriving DecidableEq, Repr, Inhabited

namespace Failure

def kind : Failure → FailureKind
  | .described kind _ _ => kind
  | .mistyped => .typeError
  | .reported kind _ _ => kind
  | .disconnected => .ioError

def code? : Failure → Option String
  | .reported _ code _ => some code
  | _ => none

/-- Whether the connection is of no use any more. -/
def endsConnection : Failure → Bool
  | .disconnected => true
  | _ => false

def withDetail (text : String) (detail : Option String) : String :=
  text ++ (detail.map (": " ++ ·)).getD ""

def text : Failure → String
  | .described kind description detail => withDetail (description ++ "- " ++ kind.name) detail
  | .mistyped => "Response was of incompatible type- " ++ FailureKind.typeError.name
  | .reported kind code detail =>
      let description :=
        if kind = .extensionError then code else "An error was signalled by the server"
      withDetail (description ++ "- " ++ kind.name) detail
  | .disconnected => "broken pipe"

end Failure
end Rollcall.Redis
