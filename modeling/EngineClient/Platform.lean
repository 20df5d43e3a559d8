import EngineClient.Text.Lowercase

/-!
# Platforms

The platforms that engine binaries are published for, and the folder of each in the bucket.
-/

namespace EngineClient

/-- A platform with published binaries. -/
inductive Platform where
  | linuxX86
  | linuxArm
  | macArm
deriving Repr, DecidableEq

namespace Platform

/-- The platform of an operating system and a machine architecture, whatever the case of their
names. -/
def resolve? (os arch : String) : Option Platform :=
  let os := Text.lowercase os
  let arch := Text.lowercase arch
  let isArm := arch == "arm64" || arch == "aarch64"
  if os == "linux" then
    if arch == "x86_64" || arch == "amd64" then some linuxX86
    else if isArm then some linuxArm else none
  else if (os == "darwin" || os == "mac" || os == "macos") && isArm then some macArm
  else none

def host : Option Platform := resolve? "linux" "x86_64"

def tag : Platform → String
  | linuxX86 => "linux-x86_64"
  | linuxArm => "linux-aarch64"
  | macArm => "mac-aarch64"

def ofTag? (name : String) : Option Platform :=
  [linuxX86, linuxArm, macArm].find? (·.tag == name)

/-- The folder that holds everything published. -/
def releaseFolder : String := "release"

def folder (p : Platform) : String := releaseFolder ++ "/" ++ p.tag

end Platform

end EngineClient
