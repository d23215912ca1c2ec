/-
  QueryLint.Disk.System

  The tree of files on which a run begins: a fresh system has the usual directories below
  its root, and the devices that read or take octets under `/dev`. The working directory
  is empty.
-/
import QueryLint.Disk.Basic

namespace QueryLint.Disk

/-- The directories below the root of every system. -/
def systemDirectories : List String :=
  ["bin", "boot", "dev", "etc", "home", "lib", "media", "mnt", "opt", "proc", "root", "run",
   "sbin", "srv", "sys", "tmp", "usr", "var"]

/-- The devices by the names they have under `/dev`. A run is given nothing to read, so its standard
    input is the null device. -/
def systemDevices : List (String × Device) :=
  [("null", .null), ("zero", .zero), ("full", .full), ("stdin", .null)]

/-- A fresh system with an empty working directory. -/
def fresh : Disk where
  entries := systemDirectories.map (fun name => (Place.root.child name, .directory)) ++
    systemDevices.map fun (name, device) => ((Place.root.child "dev").child name, .device device)

end QueryLint.Disk
