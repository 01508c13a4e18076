import NetworkCompiler.Provision.Context

/-!
# The name service

The router answers for the names of its own network: every machine with an address has a record
under its full name, other names point at the machine they belong to, and everything else is
asked of other resolvers. `NameConfig` is the configuration as data, `NameConfig.text` its written
form.
-/

namespace NetworkCompiler.Provision

open ConfigUnit
open Ipv4 (Address Block)
open Shell (quote)

/-- What the name service knows about a name. -/
inductive NameRecord where
  /-- A full name and its address, in both directions. -/
  | address (fqdn : String) (a : Address)
  /-- Another name for a full name. -/
  | cname (name fqdn : String)
  deriving DecidableEq

/-- The configuration of the name service. -/
structure NameConfig where
  domain : String
  gateways : List Address
  clients : List Block
  records : List NameRecord
  /-- The list of names that are not answered for. -/
  blocklist : Option String
  forwarders : List Address
  deriving DecidableEq

/-- The address records, of the first address of every machine. -/
def addressRecords (c : Context) : List NameRecord :=
  c.graph.entries.filterMap fun (id, m) =>
    (c.topology.addressesOf id).head?.map (.address m.fqdn)

/-- A name without a dot stands for one in the domain. -/
def qualified (domain name : String) : String :=
  if '.' ∈ name.toList then name else name ++ "." ++ domain

/-- The other names of all machines. -/
def aliasRecords (g : Graph) : List NameRecord :=
  g.machines.flatMap fun m => m.cnames.map fun n => .cname (qualified g.domain n) m.fqdn

/-- The file with the names that are not answered for. -/
def blocklistPath : String := "/etc/unbound/adblock.conf"

/-- The configuration of the name service of a network. -/
def nameConfig (c : Context) : NameConfig where
  domain := c.graph.domain
  gateways := c.topology.subnets.map (·.gateway)
  clients := c.topology.subnets.map (·.net)
  records := addressRecords c ++ aliasRecords c.graph
  blocklist := if c.graph.adblocking then some blocklistPath else none
  forwarders := c.graph.resolvers

/-! ## Writing -/

/-- A key with a value between quotes. -/
def quotedEntry (key value : String) : String :=
  key ++ ": \"" ++ value ++ "\""

/-- The entries of a record. -/
def NameRecord.entries : NameRecord → List String
  | address fqdn a =>
    [quotedEntry "local-data" s!"{fqdn}. IN A {a}", quotedEntry "local-data-ptr" s!"{a} {fqdn}"]
  | cname name fqdn => [quotedEntry "local-data" s!"{name}. IN CNAME {fqdn}."]

/-- A clause with its entries. -/
def clause (name : String) (entries : List String) : List String :=
  (name ++ ":") :: entries.map ("    " ++ ·)

namespace NameConfig

/-- The configuration as a file. -/
def text (c : NameConfig) : String :=
  Text.unlines <|
    clause "server"
      (["interface: 127.0.0.1"] ++
        c.gateways.map (fun a => s!"interface: {a}") ++
        ["access-control: 127.0.0.0/8 allow"] ++
        c.clients.map (fun b => s!"access-control: {b} allow") ++
        [quotedEntry "private-domain" c.domain,
          quotedEntry "local-zone" (c.domain ++ ".") ++ " static"] ++
        c.records.flatMap NameRecord.entries ++
        c.blocklist.toList.map (quotedEntry "include")) ++
    [""] ++
    clause "forward-zone" ("name: \".\"" :: c.forwarders.map fun a => s!"forward-addr: {a}")

end NameConfig

/-! ## Units -/

/-- The package of the name service. -/
def namePackage : String := "unbound"

/-- The file with the configuration. -/
def namePath : String := "/etc/unbound/unbound.conf.d/netconverge.conf"

/-- The list of names that are not answered for exists. -/
def blocklistUnit (precondition : String) : ConfigUnit :=
  let q := quote blocklistPath
  ((ConfigUnit.new "adblock_list" s!"test -f {q} && echo yes" "yes" s!"touch {q}").after
    precondition).saying s!"{blocklistPath} is missing"

/-- The files of the name service. -/
def nameFiles (c : Context) : List ConfigUnit :=
  let package := (packageInstalled namePackage).label
  (if c.graph.adblocking then [blocklistUnit package] else []) ++
    [(fileContent namePath (nameConfig c).text).after package]

/-- The name service runs, on a configuration that is legal. -/
def nameLive : List ConfigUnit :=
  let enabled := (serviceEnabled namePackage).after ("file_" ++ key namePath)
  let running := (serviceRunning namePackage).after enabled.label
  [enabled, running,
    ((ConfigUnit.singleton "unbound_conf_valid" "unbound-checkconf >/dev/null 2>&1 && echo ok"
      "ok").after running.label).saying "unbound-checkconf rejects the configuration"]

end NetworkCompiler.Provision
