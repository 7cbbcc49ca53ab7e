import Fleet.Error

/-!
Bringing a machine up: what the process that does it is told, in variables.
-/

namespace Fleet.Vm

structure Launch where
  userId : String
  orgId : String
  token : String
  ticket : String
  controlPlaneUrl : String
  deriving DecidableEq, Repr, Inhabited

namespace Launch

def environment (l : Launch) : List (String × String) :=
  [("VM_USER_ID", l.userId), ("VM_ORG_ID", l.orgId), ("VM_TOKEN", l.token),
    ("VM_TICKET", l.ticket), ("VM_CONTROL_PLANE_URL", l.controlPlaneUrl)]

/-- Why no process can be started: a variable cannot hold the character zero. Without a command a
machine is expected to come up by itself. -/
def check (command : Option String) (l : Launch) : Except Error Unit :=
  match command with
  | none => .ok ()
  | some c =>
    if c.toList.contains '\x00' || l.environment.any fun v => v.2.toList.contains '\x00' then
      .error (.transport "Failed to spawn bootstrap command: nul byte found in provided data")
    else .ok ()

end Launch

end Fleet.Vm
