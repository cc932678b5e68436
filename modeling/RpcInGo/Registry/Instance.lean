/-! Service instances and their changes, as the registries report them. -/

namespace RpcInGo.Registry.Instance

inductive InstanceStatus
  | unknown
  | up
  | down
  | starting
  deriving DecidableEq, Repr

/-- `RegisterTime` and `UpdateTime` are left out: the client never reads them. -/
structure ServiceInstance where
  id : String
  service : String
  version : String
  address : String
  port : Int
  metadata : List (String × String)
  weight : Int
  status : InstanceStatus
  deriving DecidableEq, Repr

/-- The clock is read in seconds, for the generated ID. -/
def newServiceInstance (service address : String) (port now : Int) : ServiceInstance where
  id := service ++ "-" ++ address ++ ":" ++ toString port ++ "-" ++ toString now
  service := service
  version := ""
  address := address
  port := port
  metadata := []
  weight := 100
  status := .up

def ServiceInstance.endpoint (si : ServiceInstance) : String :=
  si.address ++ ":" ++ toString si.port

inductive EventType
  | add
  | update
  | delete
  deriving DecidableEq, Repr

structure Event where
  type : EventType
  inst : ServiceInstance
  deriving DecidableEq, Repr

end RpcInGo.Registry.Instance
