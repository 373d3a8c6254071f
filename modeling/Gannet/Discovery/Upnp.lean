import Gannet.Discovery.Adjacent
import Gannet.Lib.Loop

/-!
# Asking a gateway over UPnP (survey.rs)

A gateway announces locations, and the survey posts SOAP requests to control
paths it expects there. What it finds in the replies is searched for by tag:
an external address, a subnet mask, a list of routers. The addresses become
subnets to be probed.

`baseEntry_allOk_iff`: `network_base` clears the host bits, where it can.
-/

namespace Gannet

open Bytes Loop Machine Text

namespace Survey

/-! ## Requests and replies -/

/-- `upnp_soap_body` -/
def upnpSoapBody (action service args : String) : String :=
  "<?xml version=\"1.0\"?>\r\n" ++
    "<s:Envelope xmlns:s=\"http://schemas.xmlsoap.org/soap/envelope/\" " ++
    "s:encodingStyle=\"http://schemas.xmlsoap.org/soap/encoding/\">\r\n" ++
    "<s:Body>\r\n" ++
    "<u:" ++ action ++ " xmlns:u=\"" ++ service ++ "\">\r\n" ++
    args ++ "\r\n" ++
    "</u:" ++ action ++ ">\r\n" ++
    "</s:Body>\r\n" ++
    "</s:Envelope>\r\n"

/-- A request as it is posted: where to, and its SOAP body. -/
structure UpnpRequest where
  url : String
  soap : String
deriving DecidableEq, Repr

/-- A location a gateway announces, and the HTTP responses to what is posted
there, as far as they are read. -/
structure Location where
  url : List Char
  respond : UpnpRequest → Option (List Char)

namespace Location

/-- `base_urls` -/
def base (location : Location) : List Char :=
  if "rootDesc.xml".toList.isSuffixOf location.url then
    trimEndMatches "rootDesc.xml".toList location.url
  else if ['/'].isSuffixOf location.url then location.url
  else location.url ++ ['/']

/-- `upnp_http_post` of a request for an action: the body of the response. -/
def post (location : Location) (service controlPath action : String) : Option (List Char) := do
  let soap := upnpSoapBody action ("urn:schemas-upnp-org:service:" ++ service) ""
  let url := String.ofList (trimEndMatches ['/'] location.base) ++ controlPath
  let response ← location.respond ⟨url, soap⟩
  let (_, body) ← splitAtFirst "\r\n\r\n".toList response
  return body

end Location

/-- `extract_xml_value` -/
def extractXmlValue (xml : List Char) (tag : String) : Option (List Char) := do
  let (_, rest) ← splitAtFirst ("<" ++ tag ++ ">").toList xml
  let (value, _) ← splitAtFirst ("</" ++ tag ++ ">").toList rest
  return value

example : extractXmlValue "<a><b>1</b></a>".toList "b" = some ['1'] := by decide

/-! ## Subnets in the replies -/

/-- `wan_services` -/
def wanServices : List (String × String × String) :=
  [("WANIPConnection:1", "/WANIPConnCtrlURL", "GetExternalIPAddress"),
    ("WANPPPConnection:1", "/WANPPPConnCtrlURL", "GetExternalIPAddress")]

/-- `lan_services` -/
def lanServices : List (String × String × String) :=
  [("LANHostConfigManagement:1", "/LANHostCfgURL", "GetSubnetMask"),
    ("LANHostConfigManagement:1", "/LANHostCfgURL", "GetIPRoutersList"),
    ("Layer3Forwarding:1", "/L3FwdURL", "GetDefaultConnectionService")]

/-- The replies in which a WAN address is looked for. -/
def Location.wanReplies (location : Location) : List (List Char) :=
  wanServices.filterMap fun (service, controlPath, action) =>
    location.post service controlPath action

/-- The replies in which routers are looked for; those to other actions are only
waited for. -/
def Location.routerReplies (location : Location) : List (List Char) :=
  lanServices.filterMap fun (service, controlPath, action) => do
    let response ← location.post service controlPath action
    if action = "GetIPRoutersList" then some response else none

/-- The external address in a reply. -/
def wanIp (response : List Char) : Option Ipv4Addr :=
  (extractXmlValue response "NewExternalIPAddress").bind Ipv4Addr.parse

/-- The subnet mask in a reply. -/
def wanMask (response : List Char) : Option Ipv4Addr :=
  (extractXmlValue response "NewSubnetMask").bind Ipv4Addr.parse

/-- The routers in a reply, of which those that are addresses are pushed. -/
def routersIn (response : List Char) : List Ipv4Addr :=
  match extractXmlValue response "NewIPRouters" with
  | some routers => (routers.splitOn ',').filterMap fun ipStr => Ipv4Addr.parse (trim ipStr)
  | none => []

/-- The network of an address. -/
def baseEntry (profile : Profile) (ip : Ipv4Addr) (prefixLen : UInt8) :
    Except Panic (List Target) := do
  return [(← Survey.networkBase profile ip prefixLen, prefixLen, .upnpDiscovery)]

/-- The networks of a public external address, for the common prefixes. -/
def commonSubnets (profile : Profile) (response : List Char) : Except Panic (List Target) :=
  match wanIp response with
  | some ip =>
    if !ip.isUnspecified && !ip.isPrivate then appendAll (baseEntry profile ip) [24, 28, 29, 30]
    else .ok []
  | none => .ok []

/-- The network of an external address with a mask. -/
def maskedSubnets (profile : Profile) (response : List Char) : Except Panic (List Target) :=
  match wanMask response, wanIp response with
  | some mask, some ip => baseEntry profile ip (maskToPrefix mask)
  | _, _ => .ok []

/-- The networks in the reply of a WAN service. -/
def wanSubnets (profile : Profile) (response : List Char) : Except Panic (List Target) := do
  let common ← commonSubnets profile response
  let masked ← maskedSubnets profile response
  return common ++ masked

/-- The networks of the routers in a reply, at the addresses as they are. -/
def routerSubnets (response : List Char) : List Target :=
  (routersIn response).flatMap fun router =>
    [(router, 24, .upnpDiscovery), (router, 16, .upnpDiscovery)]

/-- `query_upnp_wan`, on the locations that were discovered. -/
def queryUpnpWan (profile : Profile) (locations : List Location) : Except Panic (List Target) :=
  appendAll (fun location => do
    let wan ← appendAll (wanSubnets profile) location.wanReplies
    return wan ++ location.routerReplies.flatMap routerSubnets) locations

/-- `query_upnp_routes`: it asks for the type of the WAN access and prints it. -/
def queryUpnpRoutes (_locations : List Location) : List Target := []

/-- `probe_gateway_upnp`; the locations are discovered twice. -/
def probeGatewayUpnp (profile : Profile) (wanLocations routeLocations : List Location) :
    Except Panic (List Target) := do
  return (← queryUpnpWan profile wanLocations) ++ queryUpnpRoutes routeLocations

end Survey

end Gannet
