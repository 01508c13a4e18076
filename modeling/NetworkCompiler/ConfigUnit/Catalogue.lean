import NetworkCompiler.ConfigUnit.Basic
import NetworkCompiler.Digest.Checksums
import NetworkCompiler.Shell.Word

/-!
# Usual units

The facts that most machines need: packages, services, files, directories, accounts and kernel
parameters. Labels are made from what a unit is about, so two units about the same thing have the
same label.
-/

namespace NetworkCompiler.ConfigUnit

open Shell (quote)

/-- The line that ends a file's content in a command. -/
def fileEnd : String := "NETCONVERGE_EOF"

/-- A package is installed. -/
def packageInstalled (package : String) : ConfigUnit :=
  let q := quote package
  (new ("pkg_" ++ key package) ("dpkg-query -W -f='$\x7bStatus\x7d' " ++ q ++ " 2>/dev/null")
    "install ok installed" ("DEBIAN_FRONTEND=noninteractive apt-get install -y " ++ q)).saying
      s!"package {package} is not installed"

/-- A service is running. -/
def serviceRunning (service : String) : ConfigUnit :=
  let q := quote service
  (new s!"svc_{key service}_running" ("systemctl is-active " ++ q) "active"
    ("systemctl restart " ++ q)).saying s!"service {service} is not running"

/-- A service starts with the system. -/
def serviceEnabled (service : String) : ConfigUnit :=
  let q := quote service
  (new s!"svc_{key service}_enabled" ("systemctl is-enabled " ++ q) "enabled"
    ("systemctl enable " ++ q)).saying s!"service {service} is not enabled"

/-- A text that ends with a line end. -/
def withLineEnd (s : String) : String :=
  if s.toList.getLast? = some '\n' then s else s ++ "\n"

/-- The directory of a file. -/
def directoryOf (path : String) : String :=
  match Text.cutAtLast? '/' path with
  | none | some ("", _) => "/"
  | some (directory, _) => directory

/-- A file has exactly this content, with a line end at its end. -/
def fileContent (path body : String) : ConfigUnit :=
  let body := withLineEnd body
  let q := quote path
  (new ("file_" ++ key path) s!"cksum < {q} 2>/dev/null" (Digest.cksumText body)
    s!"mkdir -p {quote (directoryOf path)} && cat > {q} <<'{fileEnd}'\n{body}{fileEnd}").saying
      s!"{path} differs from its rendered content"

/-- A file has a line. -/
def lineAppended (label path line : String) : ConfigUnit :=
  let q := quote path
  let l := quote line
  (new label s!"grep -qxF {l} {q} 2>/dev/null && echo present" "present"
    s!"printf '%s\\n' {l} >> {q}").saying s!"{path} lacks a required line"

/-- A directory exists. -/
def directoryExists (path : String) : ConfigUnit :=
  let q := quote path
  (new ("dir_" ++ key path) s!"test -d {q} && echo yes" "yes" s!"mkdir -p {q}").saying
    s!"directory {path} is missing"

/-- An account exists. -/
def userExists (user fullname : String) : ConfigUnit :=
  let q := quote user
  (new ("user_" ++ key user) s!"id -u {q} >/dev/null 2>&1 && echo yes" "yes"
    s!"useradd -m -s /bin/bash -c {quote fullname} {q}").saying s!"user {user} does not exist"

/-- An account belongs to a group. -/
def groupMember (user group : String) : ConfigUnit :=
  let u := quote user
  let g := quote group
  (new s!"group_{key group}_{key user}"
    s!"id -nG {u} 2>/dev/null | tr ' ' '\\n' | grep -qx {g} && echo yes" "yes"
    s!"usermod -aG {g} {u}").saying s!"{user} is not in group {group}"

/-- A file has these permissions. -/
def fileMode (path mode : String) : ConfigUnit :=
  let q := quote path
  (new ("mode_" ++ key path) s!"stat -c %a {q} 2>/dev/null" mode s!"chmod {mode} {q}").saying
    s!"{path} should have mode {mode}"

/-- A file belongs to `owner`, a user and a group with a colon between them. -/
def fileOwner (path owner : String) : ConfigUnit :=
  let q := quote path
  (new ("owner_" ++ key path) s!"stat -c %U:%G {q} 2>/dev/null" owner
    s!"chown {quote owner} {q}").saying s!"{path} should be owned by {owner}"

/-- A link points at a target. -/
def linkTo (link target : String) : ConfigUnit :=
  let l := quote link
  (new ("link_" ++ key link) s!"readlink {l}" target s!"ln -sfn {quote target} {l}").saying
    s!"{link} should point at {target}"

/-- A kernel parameter has a value. -/
def kernelParameter (name value : String) : ConfigUnit :=
  (new ("sysctl_" ++ key name) ("sysctl -n " ++ quote name) value
    ("sysctl -w " ++ quote (name ++ "=" ++ value))).saying s!"{name} should be {value}"

end NetworkCompiler.ConfigUnit
