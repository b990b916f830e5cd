import Mathlib.Tactic.Common

/-!
# The reader of licence files

A licence file is read token by token. The main loop looks for the start of an element it knows. The text of
a field is the token behind the start of its element. Of the elements `requirements` and `customer` only the
token behind their start is looked at before the main loop goes on.
-/

namespace Ts3Video

/-- A token of an XML document. Where a document is not well-formed, its tokens end with an invalid one. -/
inductive XmlToken where
  | noToken
  | invalid
  | startElement (name : String) (attributes : List (String × String))
  | characters (text : String)
  | endElement (name : String)
deriving DecidableEq

namespace XmlToken

/-- The text of a token, empty unless it has characters. -/
def text : XmlToken → String
  | .characters text => text
  | _ => ""

/-- The token starts an element of this name. -/
def isStart (token : XmlToken) (name : String) : Bool :=
  match token with
  | .startElement found _ => found = name
  | _ => false

end XmlToken

/-- The next token and the ones behind it. An invalid token is not passed. -/
def QXmlStreamReader.readNext : List XmlToken → XmlToken × List XmlToken
  | [] => (.noToken, [])
  | .invalid :: rest => (.invalid, .invalid :: rest)
  | token :: rest => (token, rest)

/-- Reading leaves no more tokens. -/
theorem QXmlStreamReader.readNext_length (tokens : List XmlToken) :
    (readNext tokens).2.length ≤ tokens.length := by
  cases tokens with
  | nil => exact Nat.le_refl _
  | cons token rest =>
    cases token with
    | invalid => exact Nat.le_refl _
    | _ => exact Nat.le_succ _

/-- What a licence says. Times are of an arbitrary type, whose default is the invalid time. -/
@[ext]
structure License (D : Type) [Inhabited D] where
  version : String := ""
  id : String := ""
  createdOn : D := default
  expiresOn : D := default
  expiresOnNever : Bool := false
  validVersions : List String := []
  requiredHostId : String := ""
  requiredMacAddress : String := ""
  requiredSerial : String := ""
  customerId : String := ""
  customerName : String := ""
  customerEmail : String := ""
deriving DecidableEq

namespace LicenseXmlReader

open QXmlStreamReader

/-- Collect the texts of version elements up to the end of their list. -/
def readVersions (tokens : List XmlToken) (versions : List String) : List String × List XmlToken :=
  match tokens with
  | [] => (versions, [])
  | .invalid :: rest => (versions, .invalid :: rest)
  | tt :: rest =>
    if tt = .endElement "valid-versions" then (versions, rest)
    else if tt.isStart "version" then
      readVersions (readNext rest).2 (versions ++ [(readNext rest).1.text])
    else readVersions rest versions
termination_by tokens.length
decreasing_by
  · have hnext := readNext_length rest
    rw [List.length_cons]
    omega
  · exact Nat.lt_succ_self _

/-- The versions are not read behind the end of the document. -/
theorem readVersions_length (tokens : List XmlToken) (versions : List String) :
    (readVersions tokens versions).2.length ≤ tokens.length := by
  fun_induction readVersions tokens versions with
  | case1 versions => exact Nat.le_refl _
  | case2 versions rest => exact Nat.le_refl _
  | case3 versions rest => exact Nat.le_succ _
  | case4 versions tt rest hvalid hend hstart ih =>
    exact Nat.le_trans (Nat.le_trans ih (readNext_length rest)) (Nat.le_succ _)
  | case5 versions tt rest hvalid hend hstart ih => exact Nat.le_succ_of_le ih

variable {D : Type} [Inhabited D] (toDateTime : String → D)

/-- The main loop: `toDateTime` reads a time. A document with an error has no licence, but the loop also
ends at requirements and at a customer without tokens inside. -/
def readTokens (tokens : List XmlToken) (lic : License D) : Option (License D) :=
  match tokens with
  | [] => some lic
  | .invalid :: _ => none
  | .startElement name attributes :: tokens =>
    let next := readNext tokens
    if name = "license" then
      readTokens tokens { lic with version := (attributes.lookup "version").getD "" }
    else if name = "id" then
      readTokens next.2 { lic with id := next.1.text }
    else if name = "created-on" then
      readTokens next.2 { lic with createdOn := toDateTime next.1.text }
    else if name = "expires-on" then
      if next.1.text = "*" then readTokens next.2 { lic with expiresOnNever := true }
      else readTokens next.2 { lic with expiresOn := toDateTime next.1.text }
    else if name = "valid-verions" then
      let versions := readVersions tokens []
      readTokens versions.2 { lic with validVersions := lic.validVersions ++ versions.1 }
    else if name = "requirements" then
      if next.1 = .endElement "requirements" then some lic
      else
        let field := readNext next.2
        if next.1.isStart "hostid" then readTokens field.2 { lic with requiredHostId := field.1.text }
        else if next.1.isStart "mac" then readTokens field.2 { lic with requiredMacAddress := field.1.text }
        else if next.1.isStart "serial" then readTokens field.2 { lic with requiredSerial := field.1.text }
        else readTokens next.2 lic
    else if name = "customer" then
      if next.1 = .endElement "customer" then some lic
      else
        let field := readNext next.2
        if next.1.isStart "id" then readTokens field.2 { lic with customerId := field.1.text }
        else if next.1.isStart "name" then readTokens field.2 { lic with customerName := field.1.text }
        else if next.1.isStart "email" then readTokens field.2 { lic with customerEmail := field.1.text }
        else readTokens next.2 lic
    else readTokens tokens lic
  | _ :: tokens => readTokens tokens lic
termination_by tokens.length
decreasing_by
  all_goals
    have hversions := readVersions_length tokens []
    have hnext := readNext_length tokens
    have hfield := readNext_length (readNext tokens).2
    simp only [List.length_cons]
    omega

/-- Load a licence: there is none if the file cannot be opened or is no XML document. -/
def loadFromFile (file : Option (List XmlToken)) : Option (License D) :=
  match file with
  | none => none
  | some tokens => readTokens toDateTime tokens {}

end LicenseXmlReader

end Ts3Video
