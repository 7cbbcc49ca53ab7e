import Fleet.Disk
import Fleet.Vm.Store

/-!
Opening a table of rows in a file: the directories on the way to it are made.
-/

namespace Fleet.Vm.Store

/-- A path as it is shown below a root. -/
def shownPath (root : String) (p : Path) : String := "/".intercalate (root :: p)

/-- Makes the directory of a database file. -/
def makeDirectory (d : Disk) (root : String) (file : Path) : Except Error Disk :=
  (d.makeAll file.dropLast).mapError fun f =>
    .store ("Failed to create database directory " ++ shownPath root file.dropLast ++ ": " ++ f.message)

end Fleet.Vm.Store
