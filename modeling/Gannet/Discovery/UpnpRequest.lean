import Gannet.Lib.Http
import Gannet.Lib.Utf8
import Gannet.Discovery.Upnp

/-!
# The requests of the UPnP queries (survey.rs)

`upnp_http_post` is given a URL and a SOAP body, and what it writes into the
`SOAPAction` header it takes from the URL: the last segment of the path, and the same
again for the action. The service and the action of the body are not in the URL.

- `upnpHttpPost_reads`: a server reads the path, the length of the body and the body.
- `upnp_request_disagrees`: in no request does the header name what the body names.
-/

namespace Gannet

open Http Text Utf8

namespace Survey

/-! ## The code -/

/-- `wan_common` -/
def wanCommon : List (String × String × String) :=
  [("WANCommonInterfaceConfig:1", "/WANCommonIfCfgURL", "GetCommonLinkProperties")]

/-- What `query_upnp_wan` and `query_upnp_routes` ask for at every location. -/
def upnpQueries : List (String × String × String) := wanServices ++ lanServices ++ wanCommon

/-- The type of a service, as the body names it. -/
def serviceUrn (service : String) : String := "urn:schemas-upnp-org:service:" ++ service

/-- What is posted at a location for a query. -/
def Location.request (location : Location) : String × String × String → UpnpRequest
  | (service, controlPath, action) =>
    { url := String.ofList (trimEndMatches ['/'] location.base) ++ controlPath
      soap := upnpSoapBody action (serviceUrn service) "" }

/-- A URL as the url crate has it. In the path of a URL with a host everything but the
printable ASCII characters is percent-encoded. -/
structure ParsedUrl where
  path : List Char
  host : Option (List Char)
  port : Option UInt16
  printable : host ≠ none → ∀ c ∈ path, '!' ≤ c ∧ c ≤ '~'

/-- `path.rsplit('/').next()` -/
def lastSegment (path : List Char) : List Char := (path.reverse.takeWhile (· ≠ '/')).reverse

/-- The lines of the request. -/
def requestHead (path host : List Char) (port : UInt16) (soap : String) : List (List Char) :=
  ["POST ".toList ++ path ++ " HTTP/1.1".toList,
    "Host: ".toList ++ host ++ ':' :: Nat.toDigits 10 port.toNat,
    "Content-Type: text/xml; charset=\"utf-8\"".toList,
    "SOAPAction: \"".toList ++ lastSegment path ++ '#' :: lastSegment path ++ ['"'],
    "Content-Length: ".toList ++ Nat.toDigits 10 soap.utf8ByteSize,
    "Connection: close".toList]

/-- `upnp_http_post`: where it connects to, and what it writes there. -/
def upnpHttpPost (parse : String → Option ParsedUrl) (request : UpnpRequest) :
    Option ((Ipv4Addr × UInt16) × List Char) := do
  let parsed ← parse request.url
  let host ← parsed.host
  let port := parsed.port.getD 80
  let ip ← Ipv4Addr.parse host
  return ((ip, port), messageOf (requestHead parsed.path host port request.soap)
    request.soap.toList)

/-- What the queries are answered at a location is the response to this request. -/
theorem post_eq_respond (location : Location) (service controlPath action : String) :
    location.post service controlPath action
      = (location.respond (location.request (service, controlPath, action))).bind fun response =>
        (splitAtFirst "\r\n\r\n".toList response).map Prod.snd := by
  show (location.respond _).bind (fun response =>
    (splitAtFirst "\r\n\r\n".toList response).bind fun split => some split.2) = _
  simp only [Option.map_eq_bind]
  rfl

/-! ## What the body names -/

/-- What stands before the element of the action. -/
def soapPreamble : List Char :=
  "<?xml version=\"1.0\"?>\r\n".toList ++
    "<s:Envelope xmlns:s=\"http://schemas.xmlsoap.org/soap/envelope/\" ".toList ++
    "s:encodingStyle=\"http://schemas.xmlsoap.org/soap/encoding/\">\r\n".toList ++
    "<s:Body>\r\n".toList

/-- The action and the service of the body of a request. -/
def soapNames (body : List Char) : Option (List Char × List Char) := do
  let (_, rest) ← splitAtFirst "<u:".toList body
  let (action, rest) ← splitAtFirst " xmlns:u=\"".toList rest
  let (service, _) ← splitAtFirst ['"'] rest
  return (action, service)

/-- No tag before the action's starts with a `u`. -/
theorem splitAtFirst_soapPreamble : splitAtFirst ['<', 'u'] (soapPreamble ++ ['<']) = none := by
  decide +kernel

/-- Where action and service stand in the body. -/
theorem toList_upnpSoapBody (action service args : String) :
    ∃ rest, (upnpSoapBody action service args).toList
      = soapPreamble ++ ("<u:".toList ++ (action.toList ++
        (" xmlns:u=\"".toList ++ (service.toList ++ ('"' :: rest))))) := by
  have hquote : "\">\r\n".toList = '"' :: ">\r\n".toList := by decide
  unfold upnpSoapBody soapPreamble
  simp only [String.toList_append, List.append_assoc, hquote, List.cons_append]
  exact ⟨_, rfl⟩

/-- Both are read back. -/
theorem soapNames_upnpSoapBody {action service : String} (haction : ' ' ∉ action.toList)
    (hservice : '"' ∉ service.toList) (args : String) :
    soapNames (upnpSoapBody action service args).toList
      = some (action.toList, service.toList) := by
  obtain ⟨rest, hbody⟩ := toList_upnpSoapBody action service args
  have hstart : splitAtFirst "<u:".toList (upnpSoapBody action service args).toList
      = some (soapPreamble, action.toList ++ (" xmlns:u=\"".toList ++
          (service.toList ++ ('"' :: rest)))) := by
    rw [hbody]
    exact splitAtFirst_append_of_pair splitAtFirst_soapPreamble _
  have hname : splitAtFirst " xmlns:u=\"".toList (action.toList ++ (" xmlns:u=\"".toList ++
      (service.toList ++ ('"' :: rest)))) = some (action.toList, service.toList ++ ('"' :: rest)) :=
    splitAtFirst_append haction _
  have hurn : splitAtFirst ['"'] (service.toList ++ ('"' :: rest)) = some (service.toList, rest) :=
    splitAtFirst_append hservice rest
  simp only [soapNames, hstart, hname, hurn, Option.bind_eq_bind, Option.bind_some]
  rfl

/-! ## What a server reads -/

variable {path host : List Char}

theorem mem_of_mem_lastSegment {c : Char} (hc : c ∈ lastSegment path) : c ∈ path :=
  List.mem_reverse.mp ((List.takeWhile_sublist _).subset (List.mem_reverse.mp hc))

/-- No line of the head is empty or has a line end in it. -/
theorem requestHead_lines (hpath : ∀ c ∈ path, '!' ≤ c ∧ c ≤ '~')
    (hhost : ∀ c ∈ host, c.isDigit = true ∨ c = '.') (port : UInt16) (soap : String) :
    ∀ l ∈ requestHead path host port soap, l ≠ [] ∧ '\r' ∉ l := by
  have hp : '\r' ∉ path := fun h => absurd (hpath _ h).1 (by decide)
  have hs : '\r' ∉ lastSegment path := fun h => hp (mem_of_mem_lastSegment h)
  have hh : '\r' ∉ host := fun h => absurd (hhost _ h) (by decide)
  have hdigits : ∀ n, '\r' ∉ Nat.toDigits 10 n := fun n h =>
    absurd (Nat.isDigit_of_mem_toDigits (by decide) (by decide) h) (by decide)
  simp [requestHead, hp, hs, hh, hdigits]

/-- What is read of a request: the path, the length of the body, and the last segment of
the path for the service and for the action. -/
theorem upnpHttpPost_reads {parse : String → Option ParsedUrl} {request : UpnpRequest}
    {parsed : ParsedUrl} {addr : Ipv4Addr × UInt16} {text : List Char}
    (hparse : parse request.url = some parsed)
    (hpost : upnpHttpPost parse request = some (addr, text)) :
    ∃ head, readMessage text = some (head, request.soap.toList) ∧
      head.head? = some ("POST ".toList ++ parsed.path ++ " HTTP/1.1".toList) ∧
      fieldValue "Content-Length" head
        = some (Nat.toDigits 10 (encode request.soap.toList).length) ∧
      fieldValue "SOAPAction" head
        = some ('"' :: lastSegment parsed.path ++ '#' :: lastSegment parsed.path ++ ['"']) := by
  simp only [upnpHttpPost, hparse, Option.bind_eq_bind, Option.bind_some,
    Option.bind_eq_some_iff] at hpost
  obtain ⟨host, hhost, ip, hip, hpost⟩ := hpost
  obtain ⟨rfl, rfl⟩ := Prod.mk.inj (Option.some.inj hpost)
  have hpath := parsed.printable (by rw [hhost]; exact Option.some_ne_none host)
  have hlines := requestHead_lines hpath (fun c => Ipv4Addr.isDigit_of_parse hip)
    (parsed.port.getD 80) request.soap
  refine ⟨_, readMessage_messageOf hlines _, rfl, ?_, ?_⟩
  · rw [length_encode_toList]
    simp [fieldValue, requestHead, stripStart]
  · simp [fieldValue, requestHead, stripStart]

/-- A request for the path that says the length of its body, and whose header names the
service and the action of the body. -/
def RequestAgrees (path text : List Char) : Prop :=
  ∃ head body action service, readMessage text = some (head, body) ∧
    head.head? = some ("POST ".toList ++ path ++ " HTTP/1.1".toList) ∧
    fieldValue "Content-Length" head = some (Nat.toDigits 10 (encode body).length) ∧
    soapNames body = some (action, service) ∧
    fieldValue "SOAPAction" head = some ('"' :: service ++ '#' :: action ++ ['"'])

@[simp] theorem toList_serviceUrn (service : String) : (serviceUrn service).toList
    = "urn:schemas-upnp-org:service:".toList ++ service.toList :=
  String.toList_append

/-- The names that the queries put together have no character that ends them, and a
service is no action. -/
theorem upnpQueries_names : ∀ query ∈ upnpQueries, ' ' ∉ query.2.2.toList ∧
    '"' ∉ (serviceUrn query.1).toList ∧ '#' ∉ (serviceUrn query.1).toList ∧
    '#' ∉ query.2.2.toList ∧ (serviceUrn query.1).toList ≠ query.2.2.toList := by
  simp only [toList_serviceUrn]
  decide +kernel

/-- A text that is written twice is not two different names. -/
theorem twice_ne {segment service action : List Char} (hservice : '#' ∉ service)
    (haction : '#' ∉ action) (hne : service ≠ action) :
    segment ++ '#' :: segment ≠ service ++ '#' :: action := by
  intro h
  have hcount := congrArg (List.count '#') h
  rw [List.count_append, List.count_append, List.count_cons_self, List.count_cons_self,
    List.count_eq_zero.mpr hservice, List.count_eq_zero.mpr haction] at hcount
  have hsegment : '#' ∉ segment := List.count_eq_zero.mp (by omega)
  obtain ⟨h₁, h₂⟩ := append_sep_inj hsegment hservice h
  exact hne (h₁.symm.trans h₂)

/-- The header of no request names what its body names. -/
theorem upnp_request_disagrees {parse : String → Option ParsedUrl} {location : Location}
    {query : String × String × String} {parsed : ParsedUrl} {addr : Ipv4Addr × UInt16}
    {text : List Char} (hquery : query ∈ upnpQueries)
    (hparse : parse (location.request query).url = some parsed)
    (hpost : upnpHttpPost parse (location.request query) = some (addr, text)) :
    ¬ RequestAgrees parsed.path text := by
  rintro ⟨head, body, action, service, hread, -, -, hbody, hheader⟩
  obtain ⟨head', hread', -, -, hheader'⟩ := upnpHttpPost_reads hparse hpost
  obtain ⟨rfl, rfl⟩ := Prod.mk.inj (Option.some.inj (hread'.symm.trans hread))
  obtain ⟨haction, hquote, hservice, hname, hne⟩ := upnpQueries_names query hquery
  have hnames := soapNames_upnpSoapBody haction hquote ""
  obtain ⟨rfl, rfl⟩ := Prod.mk.inj (Option.some.inj (hnames.symm.trans hbody))
  rw [hheader'] at hheader
  have hquoted := List.append_cancel_right (Option.some.inj hheader)
  exact twice_ne hservice hname hne (List.cons.inj hquoted).2

/-- A gateway whose description is at port 5000. -/
def gateway : Location where
  url := "http://192.168.1.1:5000/rootDesc.xml".toList
  respond _ := none

/-- Its control URL, parsed. -/
def gatewayControl : ParsedUrl where
  path := "/WANIPConnCtrlURL".toList
  host := some "192.168.1.1".toList
  port := some 5000
  printable _ := by simp

/-- A parser that knows the one URL. -/
def gatewayParse (url : String) : Option ParsedUrl :=
  if url = "http://192.168.1.1:5000/WANIPConnCtrlURL" then some gatewayControl else none

/-- The query for its external address. -/
def gatewayRequest : UpnpRequest :=
  gateway.request ("WANIPConnection:1", "/WANIPConnCtrlURL", "GetExternalIPAddress")

theorem gatewayParse_request : gatewayParse gatewayRequest.url = some gatewayControl :=
  if_pos (by decide +kernel)

/-- What is sent to the gateway. -/
theorem upnpHttpPost_gateway : upnpHttpPost gatewayParse gatewayRequest
    = some ((⟨192, 168, 1, 1⟩, 5000), messageOf
        (requestHead gatewayControl.path "192.168.1.1".toList 5000 gatewayRequest.soap)
        gatewayRequest.soap.toList) := by
  rw [upnpHttpPost, gatewayParse_request]
  rfl

/-- The header names another service than the body. -/
theorem upnp_request_disagrees_at_gateway : ¬ RequestAgrees gatewayControl.path (messageOf
    (requestHead gatewayControl.path "192.168.1.1".toList 5000 gatewayRequest.soap)
    gatewayRequest.soap.toList) :=
  upnp_request_disagrees (by decide) gatewayParse_request upnpHttpPost_gateway

/-- The header of the query for the external address. -/
theorem soapAction_of_gateway : ∃ text head body,
    upnpHttpPost gatewayParse gatewayRequest = some ((⟨192, 168, 1, 1⟩, 5000), text) ∧
      readMessage text = some (head, body) ∧
      fieldValue "SOAPAction" head = some "\"WANIPConnCtrlURL#WANIPConnCtrlURL\"".toList ∧
      soapNames body = some ("GetExternalIPAddress".toList,
        "urn:schemas-upnp-org:service:WANIPConnection:1".toList) := by
  obtain ⟨head, hread, -, -, hheader⟩ :=
    upnpHttpPost_reads gatewayParse_request upnpHttpPost_gateway
  refine ⟨_, head, _, upnpHttpPost_gateway, hread, hheader.trans (by decide), ?_⟩
  exact (soapNames_upnpSoapBody (by decide) (by decide) "").trans (by decide)

end Survey

end Gannet
