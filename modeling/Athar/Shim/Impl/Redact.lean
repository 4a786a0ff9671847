import Athar.Shim.Impl.Php
import Mathlib.Data.List.Infix

/-!
This module contains the classification of field names and the mandatory redaction pass of the shim.
-/

namespace Athar.Shim

inductive DataClass where
  | c0Public
  | c1Technical
  | c2Pseudonymous
  | c3Personal
  | c4Sensitive
  | c5Secret
  deriving DecidableEq, Repr

namespace Classify

def C5_SUBSTRINGS : List String :=
  ["authorization", "auth_token", "cookie", "set-cookie", "x-api-key", "x_api_key", "apikey",
    "api_key", "password", "passwd", "passphrase", "secret", "token", "card", "cardnumber",
    "card_number", "cvv", "cvc", "pan", "iban", "swift", "routing", "ssn", "private_key",
    "privatekey", "access_key", "accesskey", "session_id", "sessionid", "session_token",
    "refresh_token", "bearer"]

def C4_SUBSTRINGS : List String :=
  ["passport", "nationalid", "national_id", "taxid", "tax_id", "dob", "date_of_birth", "birthdate",
    "biometric", "fingerprint", "medical", "health", "diagnosis"]

def C3_SUBSTRINGS : List String :=
  ["email", "phone", "mobile", "first_name", "last_name", "full_name", "firstname", "lastname",
    "fullname", "address", "city", "postcode", "postal_code", "zip", "ipaddress", "ip_address",
    "remote_addr"]

def C2_SUBSTRINGS : List String :=
  ["user_id", "userid", "device_id", "deviceid", "account_id", "accountid", "customer_id",
    "customerid"]

def C1_SUBSTRINGS : List String :=
  ["endpoint_id", "service_id", "deployment_id", "trace_id", "traceid", "request_id", "requestid",
    "span_id", "latency", "duration", "status_code", "route"]

def C0_SUBSTRINGS : List String :=
  ["method", "framework_version", "http_version"]

def strtolower (text : String) : List Char :=
  text.toList.map Char.toLower

def strContains (haystack : List Char) (needle : String) : Bool :=
  needle.toList <:+: haystack

def matchesAny (haystack : List Char) (needles : List String) : Bool :=
  needles.any (strContains haystack)

def classifyField (fieldName : String) : DataClass :=
  let needle := strtolower fieldName
  if matchesAny needle C5_SUBSTRINGS then .c5Secret
  else if matchesAny needle C4_SUBSTRINGS then .c4Sensitive
  else if matchesAny needle C3_SUBSTRINGS then .c3Personal
  else if matchesAny needle C2_SUBSTRINGS then .c2Pseudonymous
  else if matchesAny needle C1_SUBSTRINGS then .c1Technical
  else if matchesAny needle C0_SUBSTRINGS then .c0Public
  else .c3Personal

end Classify

namespace Redact

-- Only a string key has a name to classify.
def classOf : PhpKey → DataClass
  | .string name => Classify.classifyField name
  | .int _ => .c1Technical

def childPath (path : String) (key : PhpKey) : String :=
  if path = "" then key.text else path ++ "." ++ key.text

mutual

-- The entries that stay, and the paths of the dropped ones.
def walkStripSecrets (path : String) : List (PhpKey × PhpValue)
    → List (PhpKey × PhpValue) × List String
  | [] => ([], [])
  | (key, value) :: data =>
    if classOf key = .c5Secret then
      let (out, droppedPaths) := walkStripSecrets path data
      (out, childPath path key :: droppedPaths)
    else
      let (value', droppedInside) := walkValue (childPath path key) value
      let (out, droppedPaths) := walkStripSecrets path data
      ((key, value') :: out, droppedInside ++ droppedPaths)

-- The walk goes into arrays only.
def walkValue (path : String) : PhpValue → PhpValue × List String
  | .array entries =>
    let (out, droppedPaths) := walkStripSecrets path entries
    (.array out, droppedPaths)
  | value => (value, [])

end

def stripSecrets (data : PhpArray) : PhpArray × List String :=
  walkStripSecrets "" data

-- An entry allows its own path. With the suffix of a wildcard it also allows what stands before the
-- suffix, and everything below that.
def allowsPath (path entry : String) : Bool :=
  entry = path
    || (".*".toList <:+ entry.toList
      && (let stem := entry.toList.take (entry.toList.length - 2)
        stem ++ ['.'] <+: path.toList || path.toList = stem))

def inAllowlist (path : String) (allowlist : List String) : Bool :=
  allowlist.any (allowsPath path)

mutual

-- Secrets are dropped even if they are allowed.
def walkApply (path : String) (allowlist : List String) : List (PhpKey × PhpValue)
    → List (PhpKey × PhpValue) × List String
  | [] => ([], [])
  | (key, value) :: data =>
    let isAllowed := inAllowlist (childPath path key) allowlist
    let keep := isAllowed || classOf key = .c0Public || classOf key = .c1Technical
    if classOf key = .c5Secret then
      let (out, droppedPaths) := walkApply path allowlist data
      (out, childPath path key :: droppedPaths)
    else if ¬keep then
      let (out, droppedPaths) := walkApply path allowlist data
      (out, childPath path key :: droppedPaths)
    else
      let (value', droppedInside) := walkApplyValue (childPath path key) allowlist value
      let (out, droppedPaths) := walkApply path allowlist data
      ((key, value') :: out, droppedInside ++ droppedPaths)

def walkApplyValue (path : String) (allowlist : List String) : PhpValue → PhpValue × List String
  | .array entries =>
    let (out, droppedPaths) := walkApply path allowlist entries
    (.array out, droppedPaths)
  | value => (value, [])

end

def apply (data : PhpArray) (allowlist : List String) : PhpArray × List String :=
  walkApply "" allowlist data

end Redact

end Athar.Shim
