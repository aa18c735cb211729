import FullStackHex.Library.SigV4
import FullStackHex.Library.Url
import FullStackHex.Sidecar.Hmac

/-!
The S3 client, from `storage/src/client.rs`: the URL of an object, presigned URLs, and
the requests it sends with their signatures. URLs are bytes; the authority of the
configured endpoints is read by the url crate, whose percent-encode sets are parameters.
-/

namespace FullStackHex.Storage

open Codec Percent

/-! ## Configuration -/

def isBucketChar (c : Char) : Bool :=
  ('a' ≤ c && c ≤ 'z') || ('0' ≤ c && c ≤ '9') || c == '-' || c == '.'

/-- The naming rules of S3: 3 to 63 characters, no mark at either end. -/
def isBucketName (s : String) : Bool :=
  3 ≤ s.toList.length && s.toList.length ≤ 63 && s.toList.all isBucketChar
    && s.toList.head?.any Char.isAlphanum && s.toList.getLast?.any Char.isAlphanum

structure Bucket where
  name : String
  wellFormed : isBucketName name = true
  deriving DecidableEq, Repr

/-- The host of an http or https URL as the url crate writes it, and its port unless that is the
default one. Host characters are visible, ASCII and not upper-case. -/
structure Origin where
  host : String
  port : Option Nat
  plain : ∀ c ∈ host.toList, ' ' < c ∧ c < '\x7f' ∧ c.isUpper = false
  deriving DecidableEq, Repr

/-- The text of an absolute URL: its origin, and the bytes after it. -/
structure UrlText where
  origin : Origin
  tail : Bytes
  deriving DecidableEq, Repr

/-- The endpoints as `Url::parse` reads them, or the text of its error. -/
structure StorageConfig where
  endpoint : Except String Origin
  publicEndpoint : Except String Origin
  accessKey : String
  secretKey : String
  bucket : Bucket
  region : String

structure Crypto where
  sha256 : Bytes → Vector UInt8 32
  hmac : Mac

/-- A moment as `%Y%m%dT%H%M%SZ` writes it. -/
structure AmzDate where
  text : String
  wellFormed : text.toList.length = 16 ∧ text.toList.all Char.isAlphanum = true
  deriving DecidableEq, Repr

def AmzDate.stamp (d : AmzDate) : String := String.ofList (d.text.toList.take 8)

/-! ## URLs -/

variable (sets : Url.EncodeSets) (crypto : Crypto)

def buildObjectUrl (endpoint : Except String Origin) (bucket : Bucket) (key : String) :
    Except String (Origin × Url.Parsed) :=
  endpoint.map fun base =>
    let path := if key = "" then "/" ++ bucket.name ++ "/" else "/" ++ bucket.name ++ "/" ++ key
    (base, Url.parse sets (utf8 path))

/-- An object's URL, its error turned into an API error. -/
def objectUrl (endpoint : Except String Origin) (bucket : Bucket) (key : String) :
    Except ApiError (Origin × Url.Parsed) :=
  (buildObjectUrl sets endpoint bucket key).mapError fun e => .internalError ("Invalid URL: " ++ e)

/-! ## Signatures -/

def sha256Hex (data : Bytes) : String := hexEncode (crypto.sha256 data).toList

def hmacSha256 (key data : Bytes) : Bytes := (crypto.hmac key data).toList

/-- Lines without a newline at the end. -/
def lines (parts : List Bytes) : Bytes := [SigV4.newline].intercalate parts

def signingKey (config : StorageConfig) (now : AmzDate) : Bytes :=
  let kDate := hmacSha256 crypto (utf8 ("AWS4" ++ config.secretKey)) (utf8 now.stamp)
  let kRegion := hmacSha256 crypto kDate (utf8 config.region)
  let kService := hmacSha256 crypto kRegion (utf8 "s3")
  hmacSha256 crypto kService (utf8 "aws4_request")

def credentialScope (config : StorageConfig) (now : AmzDate) : String :=
  now.stamp ++ "/" ++ config.region ++ "/s3/aws4_request"

def algorithm : String := "AWS4-HMAC-SHA256"

def signature (config : StorageConfig) (now : AmzDate) (canonicalRequest : Bytes) : String :=
  let stringToSign := lines [utf8 algorithm, utf8 now.text, utf8 (credentialScope config now),
    utf8 (sha256Hex crypto canonicalRequest)]
  hexEncode (hmacSha256 crypto (signingKey crypto config now) stringToSign)

/-! ## Presigned URLs -/

/-- `replace('/', "%2F")`. -/
def escapeSlashes (s : String) : String :=
  String.ofList (s.toList.flatMap fun c => if c = '/' then "%2F".toList else [c])

def presignParams (config : StorageConfig) (now : AmzDate) (expires : UInt64) :
    List (String × String) :=
  let credential := config.accessKey ++ "/" ++ credentialScope config now
  [("X-Amz-Algorithm", algorithm), ("X-Amz-Credential", escapeSlashes credential),
    ("X-Amz-Date", now.text), ("X-Amz-Expires", toString expires.toNat),
    ("X-Amz-SignedHeaders", "host")].insertionSort fun a b => a.1 ≤ b.1

def presignQuery (config : StorageConfig) (now : AmzDate) (expires : UInt64) : Bytes :=
  [byte '&'].intercalate ((presignParams config now expires).map fun p => utf8 (p.1 ++ "=" ++ p.2))

def lowercase (s : String) : String := String.ofList (s.toList.map Char.toLower)

def presignCanonical (config : StorageConfig) (now : AmzDate) (expires : UInt64) (origin : Origin)
    (path : Bytes) (method : String) : Bytes :=
  let canonicalHeaders := utf8 ("host:" ++ lowercase origin.host ++ "\n")
  lines [utf8 method, path, presignQuery config now expires, canonicalHeaders, utf8 "host",
    utf8 "UNSIGNED-PAYLOAD"]

def presignedUrl (config : StorageConfig) (now : AmzDate) (key method : String)
    (expires : UInt64) : Except ApiError UrlText := do
  let (origin, url) ← objectUrl sets config.publicEndpoint config.bucket key
  let canonicalRequest := presignCanonical config now expires origin url.path method
  .ok ⟨origin, url.text ++ byte '?' :: presignQuery config now expires
    ++ utf8 ("&X-Amz-Signature=" ++ signature crypto config now canonicalRequest)⟩

/-! ## Signed requests -/

/-- With the names of the signed headers and the text that was signed, which the source keeps to
itself. -/
structure SignedRequest where
  host : String
  amzDate : String
  payloadHash : String
  authorization : String
  signedHeaders : List String
  canonicalRequest : Bytes

/-- `trim`, of the white space that a header value can have. -/
def trimText (s : String) : String := String.ofList (trimBy Char.isWhitespace s.toList)

def signingHeaders (now : AmzDate) (host contentType payloadHash : String) :
    List (String × String) :=
  let headers := [("host", host), ("x-amz-content-sha256", payloadHash), ("x-amz-date", now.text)]
  let headers := if contentType = "" then headers else headers ++ [("content-type", contentType)]
  headers.insertionSort fun a b => a.1 ≤ b.1

def joinNames (names : List String) : String :=
  String.ofList ([';'].intercalate (names.map String.toList))

def signRequestInner (config : StorageConfig) (now : AmzDate) (method : String) (url : UrlText)
    (contentType payloadHash : String) : SignedRequest :=
  let parsed := Url.parse sets url.tail
  let headers := signingHeaders now url.origin.host contentType payloadHash
  let canonicalHeaders :=
    lines (headers.map fun h => utf8 (lowercase h.1 ++ ":" ++ trimText h.2)) ++ [SigV4.newline]
  let signedHeaders := headers.map fun h => lowercase h.1
  let canonicalRequest := lines [utf8 method, parsed.path, parsed.query.getD [], canonicalHeaders,
    utf8 (joinNames signedHeaders), utf8 payloadHash]
  let authorization := algorithm ++ " Credential=" ++ config.accessKey ++ "/"
    ++ credentialScope config now ++ ", SignedHeaders=" ++ joinNames signedHeaders
    ++ ", Signature=" ++ signature crypto config now canonicalRequest
  ⟨url.origin.host, now.text, payloadHash, authorization, signedHeaders, canonicalRequest⟩

def signRequest (config : StorageConfig) (now : AmzDate) (method : String) (url : UrlText)
    (contentType : String) (body : Bytes) : SignedRequest :=
  signRequestInner sets crypto config now method url contentType (sha256Hex crypto body)

def signRequestUnsigned (config : StorageConfig) (now : AmzDate) (method : String) (url : UrlText)
    (contentType : String) : SignedRequest :=
  signRequestInner sets crypto config now method url contentType "UNSIGNED-PAYLOAD"

/-! ## Requests -/

/-- A request as the client builds it, with names of headers in lower case. -/
structure Outgoing where
  method : String
  url : UrlText
  headers : List (String × String)
  deriving DecidableEq, Repr

/-- A request that has been sent, and what it was signed with. -/
structure Issued where
  request : Outgoing
  signed : SignedRequest

/-- Visible ASCII, blanks and tabs: what can be the value of a header. -/
def legalHeader (value : String) : Bool :=
  value.toList.all fun c => c == '\t' || (' ' ≤ c && c ≤ '~')

/-- A request with an illegal header value is not sent. -/
def send (label : String) (request : Outgoing) (signed : SignedRequest) : Except ApiError Issued :=
  if request.headers.all fun h => legalHeader h.2 then .ok ⟨request, signed⟩
  else .error (.serviceUnavailable (label ++ ": builder error"))

/-- The headers that every request has. -/
def commonHeaders (signed : SignedRequest) (payloadHash : String) : List (String × String) :=
  [("host", signed.host), ("x-amz-date", signed.amzDate), ("x-amz-content-sha256", payloadHash),
    ("authorization", signed.authorization)]

/-- The URL of an object as text. -/
def objectUrlText (config : StorageConfig) (key : String) : Except ApiError UrlText :=
  (objectUrl sets config.endpoint config.bucket key).map fun (origin, url) => ⟨origin, url.text⟩

def UrlText.append (url : UrlText) (s : String) : UrlText := ⟨url.origin, url.tail ++ utf8 s⟩

section Operations

variable (config : StorageConfig) (now : AmzDate)

def upload (key : String) (body : Bytes) (contentType : String) : Except ApiError Issued := do
  let url ← objectUrlText sets config key
  let signed := signRequest sets crypto config now "PUT" url contentType body
  send "Upload failed" ⟨"PUT", url,
    ("content-type", contentType) :: commonHeaders signed signed.payloadHash⟩ signed

def uploadStreaming (key contentType : String) : Except ApiError Issued := do
  let url ← objectUrlText sets config key
  let signed := signRequestUnsigned sets crypto config now "PUT" url contentType
  send "Upload failed" ⟨"PUT", url,
    ("content-type", contentType) :: commonHeaders signed "UNSIGNED-PAYLOAD"⟩ signed

def download (key : String) : Except ApiError Issued := do
  let url ← objectUrlText sets config key
  let signed := signRequest sets crypto config now "GET" url "" []
  send "Download failed" ⟨"GET", url, commonHeaders signed signed.payloadHash⟩ signed

def downloadStreaming (key : String) : Except ApiError Issued := do
  let url ← objectUrlText sets config key
  let signed := signRequestUnsigned sets crypto config now "GET" url ""
  send "Download failed" ⟨"GET", url, commonHeaders signed "UNSIGNED-PAYLOAD"⟩ signed

def delete (key : String) : Except ApiError Issued := do
  let url ← objectUrlText sets config key
  let signed := signRequest sets crypto config now "DELETE" url "" []
  send "Delete failed" ⟨"DELETE", url, commonHeaders signed signed.payloadHash⟩ signed

/-- `application/x-www-form-urlencoded`. -/
def formEncode (bs : Bytes) : Bytes :=
  bs.flatMap fun b =>
    if b = byte ' ' then [byte '+']
    else if (unreserved b && b != byte '~') || b == byte '*' then [b]
    else escape b

/-- `append_pair` on a URL without a query, for two pairs. -/
def listQuery (pre : String) : Bytes :=
  utf8 "list-type=2&prefix=" ++ formEncode (utf8 pre)

def list (pre : String) : Except ApiError Issued := do
  let base ← objectUrlText sets config ""
  let url : UrlText := ⟨base.origin, base.tail ++ byte '?' :: listQuery pre⟩
  let signed := signRequest sets crypto config now "GET" url "" []
  send "List failed" ⟨"GET", url, commonHeaders signed signed.payloadHash⟩ signed

def createMultipartUpload (key contentType : String) : Except ApiError Issued := do
  let base ← objectUrlText sets config key
  let url := base.append "?uploads"
  let signed := signRequestUnsigned sets crypto config now "POST" url contentType
  let headers := commonHeaders signed "UNSIGNED-PAYLOAD"
  send "Multipart init failed" ⟨"POST", url,
    if contentType = "" then headers else headers ++ [("content-type", contentType)]⟩ signed

def partSuffix (uploadId : String) (partNumber : UInt32) : String :=
  "?partNumber=" ++ toString partNumber.toNat ++ "&uploadId=" ++ uploadId

def uploadPart (key uploadId : String) (partNumber : UInt32) (body : Bytes) :
    Except ApiError Issued := do
  let base ← objectUrlText sets config key
  let url := base.append (partSuffix uploadId partNumber)
  let signed := signRequest sets crypto config now "PUT" url "" body
  send "Part upload failed" ⟨"PUT", url, commonHeaders signed signed.payloadHash⟩ signed

def uploadPartStreaming (key uploadId : String) (partNumber : UInt32) :
    Except ApiError Issued := do
  let base ← objectUrlText sets config key
  let url := base.append (partSuffix uploadId partNumber)
  let signed := signRequestUnsigned sets crypto config now "PUT" url ""
  send "Part upload failed" ⟨"PUT", url, commonHeaders signed "UNSIGNED-PAYLOAD"⟩ signed

structure PartInfo where
  partNumber : UInt32
  etag : String
  deriving DecidableEq, Repr

/-- The escapes of `quick_xml`. -/
def xmlEscape (s : String) : String :=
  String.ofList (s.toList.flatMap fun c =>
    if c = '<' then "&lt;".toList
    else if c = '>' then "&gt;".toList
    else if c = '&' then "&amp;".toList
    else if c.toNat = 39 then "&apos;".toList
    else if c = '"' then "&quot;".toList
    else [c])

def buildCompleteMultipartXml (parts : List PartInfo) : String :=
  "<CompleteMultipartUpload xmlns=\"http://s3.amazonaws.com/doc/2006-03-01/\">"
    ++ String.join (parts.map fun p => "<Part><PartNumber>" ++ toString p.partNumber.toNat
      ++ "</PartNumber><ETag>\"" ++ xmlEscape p.etag ++ "\"</ETag></Part>")
    ++ "</CompleteMultipartUpload>"

def completeMultipartUpload (key uploadId : String) (parts : List PartInfo) :
    Except ApiError Issued := do
  let base ← objectUrlText sets config key
  let url := base.append ("?uploadId=" ++ uploadId)
  let xml := buildCompleteMultipartXml parts
  let signed := signRequest sets crypto config now "POST" url "application/xml" (utf8 xml)
  send "Multipart complete failed" ⟨"POST", url,
    ("content-type", "application/xml") :: commonHeaders signed signed.payloadHash⟩ signed

def abortMultipartUpload (key uploadId : String) : Except ApiError Issued := do
  let base ← objectUrlText sets config key
  let url := base.append ("?uploadId=" ++ uploadId)
  let signed := signRequestUnsigned sets crypto config now "DELETE" url ""
  send "Multipart abort failed" ⟨"DELETE", url, commonHeaders signed "UNSIGNED-PAYLOAD"⟩ signed

end Operations

/-- The requests that the client can be asked for. -/
inductive StorageOp where
  | upload (key : String) (body : Bytes) (contentType : String)
  | uploadStreaming (key contentType : String)
  | download (key : String)
  | downloadStreaming (key : String)
  | delete (key : String)
  | list (pre : String)
  | createMultipartUpload (key contentType : String)
  | uploadPart (key uploadId : String) (partNumber : UInt32) (body : Bytes)
  | uploadPartStreaming (key uploadId : String) (partNumber : UInt32)
  | completeMultipartUpload (key uploadId : String) (parts : List PartInfo)
  | abortMultipartUpload (key uploadId : String)

def StorageOp.issue (config : StorageConfig) (now : AmzDate) : StorageOp → Except ApiError Issued
  | .upload key body contentType => Storage.upload sets crypto config now key body contentType
  | .uploadStreaming key contentType =>
      Storage.uploadStreaming sets crypto config now key contentType
  | .download key => Storage.download sets crypto config now key
  | .downloadStreaming key => Storage.downloadStreaming sets crypto config now key
  | .delete key => Storage.delete sets crypto config now key
  | .list pre => Storage.list sets crypto config now pre
  | .createMultipartUpload key contentType =>
      Storage.createMultipartUpload sets crypto config now key contentType
  | .uploadPart key uploadId partNumber body =>
      Storage.uploadPart sets crypto config now key uploadId partNumber body
  | .uploadPartStreaming key uploadId partNumber =>
      Storage.uploadPartStreaming sets crypto config now key uploadId partNumber
  | .completeMultipartUpload key uploadId parts =>
      Storage.completeMultipartUpload sets crypto config now key uploadId parts
  | .abortMultipartUpload key uploadId =>
      Storage.abortMultipartUpload sets crypto config now key uploadId

/-- The request as the server receives it: without the fragment of its URL, and without the
blanks around the values of its headers. -/
def Outgoing.received (r : Outgoing) : SigV4.Message :=
  let parsed := Url.parse sets r.url.tail
  ⟨utf8 r.method, parsed.path, parsed.query.getD [],
    r.headers.map fun h => (utf8 h.1, trimBy SigV4.blank (utf8 h.2))⟩

end FullStackHex.Storage
