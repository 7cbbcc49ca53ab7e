/-!
The names of calls and reports.
-/

namespace Fleet.Method

/-! Calls of the control plane to a machine. -/

def startSession := "start_session"
def userMessage := "user_message"
def cancelSession := "cancel_session"
def stopSession := "stop_session"

/-! Calls of a machine to the control plane. -/

def skillPackage := "get_skill_package"
def memorySearch := "memory_search"

/-! Reports of a machine, which get no answer. -/

def snapshot := "snapshot_sync"
def memoryWrite := "memory_write"
def usage := "usage_report"
def audit := "audit_log"
def evolution := "evolution_submit"

end Fleet.Method
