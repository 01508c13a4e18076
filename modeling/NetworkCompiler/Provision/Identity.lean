import NetworkCompiler.Provision.Context

/-!
# Identity of machines

What every machine gets: its name, the table of its own names and addresses, the packages it
cannot do without, and daily security updates.

Every person listed as an administrator of a machine gets an account on it, with the person's key
if there is one, and with a generated password if the network asks for passwords.
-/

namespace NetworkCompiler.Provision

open ConfigUnit
open Shell (quote)

/-- The packages of every machine. -/
def basePackages : List String := ["sudo", "openssh-server", "ca-certificates"]

/-- The table of a machine's own names. -/
def hostsFile (c : Context) : String :=
  let names := c.machine.fqdn ++ "\t" ++ c.label ++ "\n"
  "127.0.0.1\tlocalhost\n127.0.1.1\t" ++ names ++
    String.join ((c.topology.addressesOf c.id).map fun a => a.text ++ "\t" ++ names)

/-- The files that name a machine. -/
def identityFiles (c : Context) : List ConfigUnit :=
  [fileContent "/etc/hostname" c.label, fileContent "/etc/hosts" (hostsFile c)]

/-- The running system knows its name and can be reached. -/
def identityLive (c : Context) : List ConfigUnit :=
  let label := c.label
  [((ConfigUnit.new "hostname_live" "hostname" label ("hostname " ++ quote label)).after
      "file_etc_hostname").saying s!"running hostname is not {label}",
    (serviceRunning "ssh").after "pkg_openssh_server"]

/-! ## Updates -/

/-- The package that installs updates. -/
def updatePackage : String := "unattended-upgrades"

/-- Updates are looked for every day. -/
def updateFiles : List ConfigUnit :=
  [(fileContent "/etc/apt/apt.conf.d/20auto-upgrades"
      ("APT::Periodic::Update-Package-Lists \"1\";\n" ++
        "APT::Periodic::Unattended-Upgrade \"1\";\n")).after (packageInstalled updatePackage).label]

/-- Updates are installed from the start. -/
def updateLive : List ConfigUnit :=
  [(serviceEnabled updatePackage).after (packageInstalled updatePackage).label]

/-! ## Accounts of administrators -/

/-- The account itself. -/
def accountUnit (name : String) (account : Account) : ConfigUnit :=
  (userExists name account.fullname).after "pkg_sudo"

/-- The key of an account and the files around it. -/
def keyUnits (name accountLabel key : String) : List ConfigUnit :=
  let directory := s!"/home/{name}/.ssh"
  let keys := directory ++ "/authorized_keys"
  let owner := s!"{name}:{name}"
  let directoryUnit := (directoryExists directory).after accountLabel
  let fileUnit := (fileContent keys key).after directoryUnit.label
  [directoryUnit, fileUnit,
    (fileOwner directory owner).after directoryUnit.label,
    (fileOwner keys owner).after fileUnit.label,
    (fileMode keys "600").after fileUnit.label]

/-- The password of an account. -/
def passwordUnit (name accountLabel passphrase : String) : ConfigUnit :=
  ((ConfigUnit.new ("passwd_" ++ key name)
      ("passwd -S " ++ quote name ++ " 2>/dev/null | cut -d' ' -f2") "P"
      ("printf '%s\\n' " ++ quote s!"{name}:{passphrase}" ++ " | chpasswd")).after
    accountLabel).saying s!"{name} has no usable password"

/-- Everything about the account of one person. -/
def accountUnits (c : Context) (name : String) (account : Account) : List ConfigUnit :=
  let user := accountUnit name account
  let keys := match account.sshkey with
    | some key => keyUnits name user.label key
    | none => []
  let password :=
    if c.graph.autogenpasswds then
      [passwordUnit name user.label (c.secrets.passphrase c.label)]
    else []
  [user, (groupMember name "sudo").after user.label] ++ keys ++ password

/-- The accounts of a machine's administrators. -/
def administratorUnits (c : Context) : List ConfigUnit :=
  c.machine.admins.flatMap fun name =>
    match (c.graph.get? name).bind (·.account) with
    | some account => accountUnits c name account
    | none => []

end NetworkCompiler.Provision
