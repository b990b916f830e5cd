import Mathlib.Data.List.Nodup
import Mathlib.Data.List.TakeWhile
import Ts3Video.Library.Runs
import Ts3Video.License.LicenseXmlReader

/-!
# What is read of a licence document

A licence document has each of its elements once, in any order and with any white space between them. The
reader recovers the identity and the times of every licence, but no versions, and of the requirements and
the customer only what directly follows the start of their elements.
-/

namespace Ts3Video

/-- The elements of a licence. -/
inductive LicenseChild where
  | id
  | createdOn
  | expiresOn
  | validVersions
  | requirements
  | customer
deriving DecidableEq

/-- The elements of the requirements. -/
inductive Requirement where
  | hostid
  | mac
  | serial
deriving DecidableEq

/-- The elements of the customer. -/
inductive CustomerField where
  | id
  | name
  | email
deriving DecidableEq

/-- The name of an element of the requirements. -/
def Requirement.elementName : Requirement → String
  | .hostid => "hostid"
  | .mac => "mac"
  | .serial => "serial"

/-- The name of an element of the customer. -/
def CustomerField.elementName : CustomerField → String
  | .id => "id"
  | .name => "name"
  | .email => "email"

/-- A licence document: the texts of its elements, the orders of the elements and the white space before each
of them and before the ends of those with elements inside. -/
structure LicenseDocument where
  version : String
  id : String
  createdOn : String
  expiresOn : String
  versions : List (String × String)
  requirement : Requirement → String
  customer : CustomerField → String
  order : List LicenseChild
  order_perm : order.Perm [.id, .createdOn, .expiresOn, .validVersions, .requirements, .customer]
  requirementOrder : List Requirement
  requirementOrder_perm : requirementOrder.Perm [.hostid, .mac, .serial]
  customerOrder : List CustomerField
  customerOrder_perm : customerOrder.Perm [.id, .name, .email]
  space : LicenseChild → String
  requirementSpace : Requirement → String
  customerSpace : CustomerField → String
  endSpace : String
  versionsEndSpace : String
  requirementsEndSpace : String
  customerEndSpace : String

namespace LicenseDocument

/-- The token of some text, if there is any. -/
def characters (text : String) : List XmlToken := if text = "" then [] else [.characters text]

/-- White space and an element with a text in it. -/
def field (space name text : String) : List XmlToken :=
  characters space ++ .startElement name [] :: (characters text ++ [.endElement name])

/-- White space and an element with others in it. -/
def group (space name : String) (attributes : List (String × String)) (inner : List XmlToken)
    (endSpace : String) : List XmlToken :=
  characters space ++ .startElement name attributes :: (inner ++ (characters endSpace ++ [.endElement name]))

variable (d : LicenseDocument)

/-- The elements of the requirements, in their order. -/
def requirementTokens (rs : List Requirement) : List XmlToken :=
  rs.flatMap fun r => field (d.requirementSpace r) r.elementName (d.requirement r)

/-- The elements of the customer, in their order. -/
def customerTokens (cs : List CustomerField) : List XmlToken :=
  cs.flatMap fun c => field (d.customerSpace c) c.elementName (d.customer c)

/-- The version elements. -/
def versionTokens (versions : List (String × String)) : List XmlToken :=
  versions.flatMap fun version => field version.1 "version" version.2

/-- An element of the licence. -/
def childTokens : LicenseChild → List XmlToken
  | .id => field (d.space .id) "id" d.id
  | .createdOn => field (d.space .createdOn) "created-on" d.createdOn
  | .expiresOn => field (d.space .expiresOn) "expires-on" d.expiresOn
  | .validVersions =>
    group (d.space .validVersions) "valid-versions" [] (versionTokens d.versions) d.versionsEndSpace
  | .requirements =>
    group (d.space .requirements) "requirements" [] (d.requirementTokens d.requirementOrder)
      d.requirementsEndSpace
  | .customer =>
    group (d.space .customer) "customer" [] (d.customerTokens d.customerOrder) d.customerEndSpace

/-- The tokens of the document. -/
def tokens : List XmlToken :=
  group "" "license" [("version", d.version)] (d.order.flatMap d.childTokens) d.endSpace

/-- The licence that the document describes. -/
def license {D : Type} [Inhabited D] (toDateTime : String → D) : License D where
  version := d.version
  id := d.id
  createdOn := toDateTime d.createdOn
  expiresOn := if d.expiresOn = "*" then default else toDateTime d.expiresOn
  expiresOnNever := d.expiresOn = "*"
  validVersions := d.versions.map Prod.snd
  requiredHostId := d.requirement .hostid
  requiredMacAddress := d.requirement .mac
  requiredSerial := d.requirement .serial
  customerId := d.customer .id
  customerName := d.customer .name
  customerEmail := d.customer .email

/-- The element of the requirements that directly follows their start. -/
def firstRequirement : Option Requirement :=
  d.requirementOrder.head?.filter fun r => d.requirementSpace r = ""

/-- The element of the customer that directly follows its start. -/
def firstCustomer : Option CustomerField :=
  d.customerOrder.head?.filter fun c => d.customerSpace c = ""

/-- The customer comes after the identity of the licence. -/
def CustomerAfterId : Prop := LicenseChild.customer ∈ d.order.dropWhile (· ≠ .id)

/-- The order decides which comes first. -/
instance : Decidable d.CustomerAfterId := inferInstanceAs (Decidable (_ ∈ _))

/-- What is not read has no text, and the identity of the customer does not replace the one of the licence. -/
structure Recovered : Prop where
  versions : d.versions = []
  requirement : ∀ r, d.firstRequirement = some r ∨ d.requirement r = ""
  customer : ∀ c, d.firstCustomer = some c ∨ d.customer c = ""
  id : d.firstCustomer = some .id ∨ ¬ d.CustomerAfterId ∨ d.id = ""

/-- Store the identity of the licence. -/
def setId {D : Type} [Inhabited D] (lic : License D) (text : String) : License D := { lic with id := text }

/-- Store an element of the requirements. -/
def setRequirement {D : Type} [Inhabited D] (lic : License D) (text : String) : Requirement → License D
  | .hostid => { lic with requiredHostId := text }
  | .mac => { lic with requiredMacAddress := text }
  | .serial => { lic with requiredSerial := text }

/-- Store an element of the customer. -/
def setCustomer {D : Type} [Inhabited D] (lic : License D) (text : String) : CustomerField → License D
  | .id => { lic with customerId := text }
  | .name => { lic with customerName := text }
  | .email => { lic with customerEmail := text }

/-- What the reader does with an element of the licence. The identity of the customer is taken for the one of
the licence, unless it directly follows the start of the customer. -/
def apply {D : Type} [Inhabited D] (toDateTime : String → D) (lic : License D) : LicenseChild → License D
  | .id => setId lic d.id
  | .createdOn => { lic with createdOn := toDateTime d.createdOn }
  | .expiresOn =>
    if d.expiresOn = "*" then { lic with expiresOnNever := true }
    else { lic with expiresOn := toDateTime d.expiresOn }
  | .validVersions => lic
  | .requirements =>
    match d.firstRequirement with
    | none => lic
    | some r => setRequirement lic (d.requirement r) r
  | .customer =>
    match d.firstCustomer with
    | none => setId lic (d.customer .id)
    | some .id => setCustomer lic (d.customer .id) .id
    | some c => setId (setCustomer lic (d.customer c) c) (d.customer .id)

section Reading

variable {D : Type} [Inhabited D] {toDateTime : String → D} {rest : List XmlToken} {lic : License D}

open LicenseXmlReader QXmlStreamReader

/-- The names of elements that the main loop looks for. -/
def knownNames : List String :=
  ["license", "id", "created-on", "expires-on", "valid-verions", "requirements", "customer"]

/-- A token that the main loop skips. -/
def Skipped : XmlToken → Prop
  | .invalid => False
  | .startElement name _ => name ∉ knownNames
  | _ => True

/-- The main loop goes on behind a token that it skips. -/
theorem read_skipped {token : XmlToken} (h : Skipped token) :
    readTokens toDateTime (token :: rest) lic = readTokens toDateTime rest lic := by
  cases token with
  | invalid => exact absurd h not_false
  | startElement name attributes =>
    simp only [Skipped, knownNames, List.mem_cons, List.not_mem_nil, or_false, not_or] at h
    obtain ⟨hlicense, hid, hcreated, hexpires, hversions, hrequirements, hcustomer⟩ := h
    rw [readTokens]
    simp only [hlicense, hid, hcreated, hexpires, hversions, hrequirements, hcustomer, if_false]
  | _ => simp [readTokens]

/-- The main loop goes on behind tokens that it skips. -/
theorem read_skipped_append {tokens : List XmlToken} (h : ∀ token ∈ tokens, Skipped token) :
    readTokens toDateTime (tokens ++ rest) lic = readTokens toDateTime rest lic := by
  induction tokens with
  | nil => rfl
  | cons token tokens ih =>
    rw [List.cons_append, read_skipped (h token List.mem_cons_self)]
    exact ih fun other hother => h other (List.mem_cons_of_mem _ hother)

/-- Characters are skipped. -/
theorem read_characters (text : String) :
    readTokens toDateTime (characters text ++ rest) lic = readTokens toDateTime rest lic := by
  refine read_skipped_append fun token htoken => ?_
  rw [characters] at htoken
  split at htoken
  · exact absurd htoken List.not_mem_nil
  · rw [List.mem_singleton.mp htoken]
    trivial

/-- The next token may be the start of an element. -/
theorem readNext_startElement (name : String) (attributes : List (String × String)) :
    readNext (.startElement name attributes :: rest) = (.startElement name attributes, rest) := rfl

/-- Behind the start of an element with a text, its text is that of the next token. -/
theorem readNext_text (name text : String) :
    (readNext (characters text ++ .endElement name :: rest)).1.text = text := by
  rw [characters]
  split
  · next hempty => exact hempty.symm
  · rfl

/-- Behind the text of an element, the main loop goes on behind the element. -/
theorem read_readNext (name text : String) :
    readTokens toDateTime (readNext (characters text ++ .endElement name :: rest)).2 lic =
      readTokens toDateTime rest lic := by
  rw [characters]
  split
  · rfl
  · exact read_skipped trivial

/-- The end of an element is skipped. -/
theorem read_endElement (name : String) :
    readTokens toDateTime (.endElement name :: rest) lic = readTokens toDateTime rest lic :=
  read_skipped trivial

/-- An element with a text that the main loop does not look for is skipped. -/
theorem read_field_skipped {name : String} (h : name ∉ knownNames) (space text : String) :
    readTokens toDateTime (field space name text ++ rest) lic = readTokens toDateTime rest lic := by
  rw [field, List.append_assoc, read_characters, List.cons_append, read_skipped (by exact h),
    List.append_assoc, read_characters, List.singleton_append, read_endElement]

section Fields

variable (space text : String)

/-- An identity is stored. -/
theorem read_id :
    readTokens toDateTime (field space "id" text ++ rest) lic =
      readTokens toDateTime rest (setId lic text) := by
  rw [field, List.append_assoc, read_characters, List.cons_append, List.append_assoc, readTokens]
  simp [readNext_text, read_readNext, setId]

/-- The time of the creation is stored. -/
theorem read_createdOn :
    readTokens toDateTime (field space "created-on" text ++ rest) lic =
      readTokens toDateTime rest { lic with createdOn := toDateTime text } := by
  rw [field, List.append_assoc, read_characters, List.cons_append, List.append_assoc, readTokens]
  simp [readNext_text, read_readNext]

/-- The time of the expiry is stored, and an asterisk as no expiry. -/
theorem read_expiresOn :
    readTokens toDateTime (field space "expires-on" text ++ rest) lic =
      readTokens toDateTime rest (if text = "*" then { lic with expiresOnNever := true }
        else { lic with expiresOn := toDateTime text }) := by
  rw [field, List.append_assoc, read_characters, List.cons_append, List.append_assoc, readTokens]
  simp only [readNext_text, List.singleton_append, read_readNext]
  simp only [String.reduceEq, if_false, if_true]
  split
  · rfl
  · rfl

end Fields

/-- The elements of the requirements are skipped. -/
theorem read_requirementTokens (rs : List Requirement) :
    readTokens toDateTime (d.requirementTokens rs ++ rest) lic = readTokens toDateTime rest lic := by
  induction rs with
  | nil => rfl
  | cons r rs ih =>
    have hunknown : r.elementName ∉ knownNames := by cases r <;> decide
    rw [requirementTokens, List.flatMap_cons, List.append_assoc, read_field_skipped hunknown]
    exact ih

/-- The elements of the customer are skipped, but its identity is taken for the one of the licence. -/
theorem read_customerTokens (cs : List CustomerField) :
    readTokens toDateTime (d.customerTokens cs ++ rest) lic =
      readTokens toDateTime rest (if .id ∈ cs then setId lic (d.customer .id) else lic) := by
  induction cs generalizing lic with
  | nil => rfl
  | cons c cs ih =>
    change readTokens toDateTime (field (d.customerSpace c) c.elementName (d.customer c) ++
      d.customerTokens cs ++ rest) lic = _
    rw [List.append_assoc]
    cases c with
    | id =>
      rw [CustomerField.elementName, read_id, ih, if_pos List.mem_cons_self]
      split
      · rfl
      · rfl
    | name =>
      rw [read_field_skipped (by decide), ih]
      simp
    | email =>
      rw [read_field_skipped (by decide), ih]
      simp

/-- White space behind the start of the requirements is passed, and the main loop goes on. -/
theorem read_requirements_space {space : String} (hspace : space ≠ "") (name text : String) :
    readTokens toDateTime (.startElement "requirements" [] :: (field space name text ++ rest)) lic =
      readTokens toDateTime (field space name text ++ rest) lic := by
  rw [field, List.append_assoc, read_characters, characters, if_neg hspace, List.singleton_append, readTokens]
  simp [readNext, XmlToken.isStart]

/-- An element directly behind the start of the requirements is stored. -/
theorem read_requirements_field (r : Requirement) (name text : String) :
    readTokens toDateTime (.startElement "requirements" [] :: .startElement r.elementName [] ::
        (characters text ++ .endElement name :: rest)) lic =
      readTokens toDateTime rest (setRequirement lic text r) := by
  rw [readTokens]
  simp only [String.reduceEq, if_false, if_true, readNext_startElement, reduceCtorEq, readNext_text,
    read_readNext]
  cases r <;> rfl

/-- White space behind the start of the customer is passed, and the main loop goes on. -/
theorem read_customer_space {space : String} (hspace : space ≠ "") (name text : String) :
    readTokens toDateTime (.startElement "customer" [] :: (field space name text ++ rest)) lic =
      readTokens toDateTime (field space name text ++ rest) lic := by
  rw [field, List.append_assoc, read_characters, characters, if_neg hspace, List.singleton_append, readTokens]
  simp [readNext, XmlToken.isStart]

/-- An element directly behind the start of the customer is stored. -/
theorem read_customer_field (c : CustomerField) (name text : String) :
    readTokens toDateTime (.startElement "customer" [] :: .startElement c.elementName [] ::
        (characters text ++ .endElement name :: rest)) lic =
      readTokens toDateTime rest (setCustomer lic text c) := by
  rw [readTokens]
  simp only [String.reduceEq, if_false, if_true, readNext_startElement, reduceCtorEq, readNext_text,
    read_readNext]
  cases c <;> rfl

/-- Of the requirements, the element that directly follows their start is stored. -/
theorem read_requirements :
    readTokens toDateTime (d.childTokens .requirements ++ rest) lic =
      readTokens toDateTime rest (d.apply toDateTime lic .requirements) := by
  have hend (rs lic) : readTokens toDateTime (d.requirementTokens rs ++ (characters d.requirementsEndSpace ++
      .endElement "requirements" :: rest)) lic = readTokens toDateTime rest lic := by
    rw [read_requirementTokens, read_characters, read_endElement]
  cases horder : d.requirementOrder with
  | nil => simpa [horder] using d.requirementOrder_perm.length_eq
  | cons r rs =>
    have hcons : d.requirementTokens (r :: rs) =
      field (d.requirementSpace r) r.elementName (d.requirement r) ++ d.requirementTokens rs := rfl
    simp only [childTokens, group, horder, List.append_assoc, List.cons_append, read_characters]
    rw [hcons, List.append_assoc, apply]
    by_cases hspace : d.requirementSpace r = ""
    · have hfirst : d.firstRequirement = some r := by simp [firstRequirement, horder, hspace]
      rw [hfirst, field, hspace, characters, if_pos rfl]
      simp only [List.nil_append, List.append_assoc, List.cons_append]
      rw [read_requirements_field]
      exact hend rs _
    · have hfirst : d.firstRequirement = none := by simp [firstRequirement, horder, hspace]
      rw [hfirst, read_requirements_space hspace, ← List.append_assoc, ← hcons]
      exact hend (r :: rs) lic

/-- Of the customer, the element that directly follows its start is stored, and a later identity is taken for
the one of the licence. -/
theorem read_customer :
    readTokens toDateTime (d.childTokens .customer ++ rest) lic =
      readTokens toDateTime rest (d.apply toDateTime lic .customer) := by
  have hend (cs lic) : readTokens toDateTime (d.customerTokens cs ++ (characters d.customerEndSpace ++
      .endElement "customer" :: rest)) lic =
        readTokens toDateTime rest (if .id ∈ cs then setId lic (d.customer .id) else lic) := by
    rw [read_customerTokens, read_characters, read_endElement]
  have hid : CustomerField.id ∈ d.customerOrder := d.customerOrder_perm.mem_iff.mpr List.mem_cons_self
  have hnodup : d.customerOrder.Nodup := d.customerOrder_perm.nodup_iff.mpr (by decide)
  cases horder : d.customerOrder with
  | nil => simpa [horder] using d.customerOrder_perm.length_eq
  | cons c cs =>
    rw [horder] at hid hnodup
    have hcons : d.customerTokens (c :: cs) =
      field (d.customerSpace c) c.elementName (d.customer c) ++ d.customerTokens cs := rfl
    simp only [childTokens, group, horder, List.append_assoc, List.cons_append, read_characters]
    rw [hcons, List.append_assoc, apply]
    by_cases hspace : d.customerSpace c = ""
    · have hfirst : d.firstCustomer = some c := by simp [firstCustomer, horder, hspace]
      rw [hfirst, field, hspace, characters, if_pos rfl]
      simp only [List.nil_append, List.append_assoc, List.cons_append]
      rw [read_customer_field]
      refine (hend cs _).trans ?_
      cases c with
      | id => rw [if_neg (List.nodup_cons.mp hnodup).1]
      | name => rw [if_pos ((List.mem_cons.mp hid).resolve_left (by decide))]
      | email => rw [if_pos ((List.mem_cons.mp hid).resolve_left (by decide))]
    · have hfirst : d.firstCustomer = none := by simp [firstCustomer, horder, hspace]
      rw [hfirst, read_customer_space hspace, ← List.append_assoc, ← hcons]
      exact (hend (c :: cs) lic).trans (by rw [if_pos hid])

/-- The versions are not read. -/
theorem read_validVersions :
    readTokens toDateTime (d.childTokens .validVersions ++ rest) lic = readTokens toDateTime rest lic := by
  have hversions : ∀ versions lic, readTokens toDateTime (versionTokens versions ++
      (characters d.versionsEndSpace ++ .endElement "valid-versions" :: rest)) lic =
        readTokens toDateTime rest lic := by
    intro versions lic
    induction versions with
    | nil => exact (read_characters _).trans (read_endElement _)
    | cons version versions ih =>
      rw [versionTokens, List.flatMap_cons, List.append_assoc, read_field_skipped (by decide)]
      exact ih
  simp only [childTokens, group, List.append_assoc, List.cons_append, read_characters]
  rw [read_skipped (by simp [Skipped, knownNames])]
  exact hversions d.versions lic

/-- An element of the licence has its effect, and the main loop goes on behind it. -/
theorem read_child (child : LicenseChild) :
    readTokens toDateTime (d.childTokens child ++ rest) lic =
      readTokens toDateTime rest (d.apply toDateTime lic child) := by
  cases child with
  | id => exact read_id _ _
  | createdOn => exact read_createdOn _ _
  | expiresOn => exact read_expiresOn _ _
  | validVersions => exact d.read_validVersions
  | requirements => exact d.read_requirements
  | customer => exact d.read_customer

/-- The elements of the licence have their effects in their order. -/
theorem read_children (order : List LicenseChild) :
    readTokens toDateTime (order.flatMap d.childTokens ++ rest) lic =
      readTokens toDateTime rest (order.foldl (d.apply toDateTime) lic) := by
  induction order generalizing lic with
  | nil => rfl
  | cons child order ih =>
    rw [List.flatMap_cons, List.append_assoc, read_child, List.foldl_cons]
    exact ih

/-- What is read of a document is the effect of its elements on a licence with its version. -/
theorem loadFromFile_tokens :
    loadFromFile toDateTime (some d.tokens) =
      some (d.order.foldl (d.apply toDateTime) { version := d.version }) := by
  rw [loadFromFile, tokens, group, characters, if_pos rfl, List.nil_append, readTokens, if_pos rfl,
    read_children, read_characters, read_endElement, readTokens]
  rfl

/-- The effect of an element, field by field. -/
theorem apply_eq (child : LicenseChild) :
    d.apply toDateTime lic child =
      { version := lic.version
        id :=
          if child = .id then d.id
          else if child = .customer ∧ d.firstCustomer ≠ some .id then d.customer .id
          else lic.id
        createdOn := if child = .createdOn then toDateTime d.createdOn else lic.createdOn
        expiresOn :=
          if child = .expiresOn then if d.expiresOn = "*" then lic.expiresOn else toDateTime d.expiresOn
          else lic.expiresOn
        expiresOnNever :=
          if child = .expiresOn then if d.expiresOn = "*" then true else lic.expiresOnNever
          else lic.expiresOnNever
        validVersions := lic.validVersions
        requiredHostId :=
          if child = .requirements then
            if d.firstRequirement = some .hostid then d.requirement .hostid else lic.requiredHostId
          else lic.requiredHostId
        requiredMacAddress :=
          if child = .requirements then
            if d.firstRequirement = some .mac then d.requirement .mac else lic.requiredMacAddress
          else lic.requiredMacAddress
        requiredSerial :=
          if child = .requirements then
            if d.firstRequirement = some .serial then d.requirement .serial else lic.requiredSerial
          else lic.requiredSerial
        customerId :=
          if child = .customer then if d.firstCustomer = some .id then d.customer .id else lic.customerId
          else lic.customerId
        customerName :=
          if child = .customer then
            if d.firstCustomer = some .name then d.customer .name else lic.customerName
          else lic.customerName
        customerEmail :=
          if child = .customer then
            if d.firstCustomer = some .email then d.customer .email else lic.customerEmail
          else lic.customerEmail } := by
  cases child with
  | expiresOn =>
    rw [apply]
    split
    · simp
    · simp
  | requirements =>
    rw [apply]
    rcases d.firstRequirement with _ | r
    · rfl
    · cases r <;> rfl
  | customer =>
    rw [apply]
    rcases d.firstCustomer with _ | c
    · rfl
    · cases c <;> rfl
  | _ => rfl

/-- The elements are in an order without duplicates. -/
theorem order_nodup : d.order.Nodup := d.order_perm.nodup_iff.mpr (by decide)

/-- Every element is in the order. -/
theorem mem_order (child : LicenseChild) : child ∈ d.order :=
  d.order_perm.mem_iff.mpr (by cases child <;> decide)

/-- A field that only one element has an effect on is changed by it once. -/
theorem foldl_apply {τ : Type} (field : License D → τ) (own : LicenseChild) (g : τ → τ)
    (hfield : ∀ lic child,
      field (d.apply toDateTime lic child) = if child = own then g (field lic) else field lic) :
    field (d.order.foldl (d.apply toDateTime) lic) = g (field lic) := by
  refine Runs.foldl_once field g (fun lic => ?_) (fun lic child _ hchild => ?_) d.order_nodup
    (d.mem_order own) lic
  · rw [hfield, if_pos rfl]
  · rw [hfield, if_neg hchild]

/-- The identity of the customer replaces that of the licence if it comes later and is not the first element
of the customer. -/
theorem foldl_apply_id :
    (d.order.foldl (d.apply toDateTime) lic).id =
      if d.CustomerAfterId ∧ d.firstCustomer ≠ some .id then d.customer .id else d.id := by
  obtain ⟨before, after, hsplit⟩ := List.append_of_mem (d.mem_order .id)
  have hnodup := d.order_nodup
  rw [hsplit] at hnodup
  obtain ⟨-, hafter, hdisjoint⟩ := List.nodup_append.mp hnodup
  obtain ⟨hid, hafter⟩ := List.nodup_cons.mp hafter
  have hbefore : LicenseChild.id ∉ before := fun h => hdisjoint _ h _ List.mem_cons_self rfl
  have hiff : d.CustomerAfterId ↔ LicenseChild.customer ∈ after := by
    rw [CustomerAfterId, hsplit, List.dropWhile_append_of_pos]
    · simp
    · intro child hchild
      exact decide_eq_true fun h => hbefore (h ▸ hchild)
  have hframe (lic : License D) (child) (hother : child ≠ .id) (hcustomer : child ≠ .customer) :
      (d.apply toDateTime lic child).id = lic.id := by
    rw [apply_eq]
    simp [hother, hcustomer]
  rw [hsplit, List.foldl_append, List.foldl_cons]
  by_cases hlater : LicenseChild.customer ∈ after
  · refine (Runs.foldl_once License.id
      (fun id => if d.firstCustomer ≠ some .id then d.customer .id else id) (fun lic => ?_)
      (fun lic child hchild => ?_) hafter hlater _).trans ?_
    · rw [apply_eq]
      simp
    · exact hframe lic child (fun h => hid (h ▸ hchild))
    · simp [hiff, hlater, apply, setId]
  · rw [if_neg (fun h => hlater (hiff.mp h.1))]
    refine Runs.foldl_frame License.id (fun lic child hchild => ?_) _
    exact hframe lic child (fun h => hid (h ▸ hchild)) (fun h => hlater (h ▸ hchild))

/-- The elements together set the identity and the times, no versions and of the requirements and the customer
only what directly follows their start. -/
theorem foldl_children :
    d.order.foldl (d.apply toDateTime) { version := d.version } =
      { version := d.version
        id := if d.CustomerAfterId ∧ d.firstCustomer ≠ some .id then d.customer .id else d.id
        createdOn := toDateTime d.createdOn
        expiresOn := if d.expiresOn = "*" then default else toDateTime d.expiresOn
        expiresOnNever := if d.expiresOn = "*" then true else false
        validVersions := []
        requiredHostId := if d.firstRequirement = some .hostid then d.requirement .hostid else ""
        requiredMacAddress := if d.firstRequirement = some .mac then d.requirement .mac else ""
        requiredSerial := if d.firstRequirement = some .serial then d.requirement .serial else ""
        customerId := if d.firstCustomer = some .id then d.customer .id else ""
        customerName := if d.firstCustomer = some .name then d.customer .name else ""
        customerEmail := if d.firstCustomer = some .email then d.customer .email else "" } := by
  apply License.ext
  · exact Runs.foldl_frame License.version (fun lic child _ => by rw [apply_eq]) _
  · exact d.foldl_apply_id
  · exact d.foldl_apply License.createdOn .createdOn
      (fun _ => toDateTime d.createdOn)
      fun lic child => by rw [apply_eq]
  · exact d.foldl_apply License.expiresOn .expiresOn
      (fun old => if d.expiresOn = "*" then old else toDateTime d.expiresOn)
      fun lic child => by rw [apply_eq]
  · exact d.foldl_apply License.expiresOnNever .expiresOn
      (fun old => if d.expiresOn = "*" then true else old)
      fun lic child => by rw [apply_eq]
  · exact Runs.foldl_frame License.validVersions (fun lic child _ => by rw [apply_eq]) _
  · exact d.foldl_apply License.requiredHostId .requirements
      (fun old => if d.firstRequirement = some .hostid then d.requirement .hostid else old)
      fun lic child => by rw [apply_eq]
  · exact d.foldl_apply License.requiredMacAddress .requirements
      (fun old => if d.firstRequirement = some .mac then d.requirement .mac else old)
      fun lic child => by rw [apply_eq]
  · exact d.foldl_apply License.requiredSerial .requirements
      (fun old => if d.firstRequirement = some .serial then d.requirement .serial else old)
      fun lic child => by rw [apply_eq]
  · exact d.foldl_apply License.customerId .customer
      (fun old => if d.firstCustomer = some .id then d.customer .id else old)
      fun lic child => by rw [apply_eq]
  · exact d.foldl_apply License.customerName .customer
      (fun old => if d.firstCustomer = some .name then d.customer .name else old)
      fun lic child => by rw [apply_eq]
  · exact d.foldl_apply License.customerEmail .customer
      (fun old => if d.firstCustomer = some .email then d.customer .email else old)
      fun lic child => by rw [apply_eq]

/-- A text that is read under a condition is right if the condition holds or there is no text. -/
theorem read_if_iff {p : Prop} [Decidable p] {text : String} :
    (if p then text else "") = text ↔ p ∨ text = "" := by
  by_cases hp : p
  · simp [hp]
  · rw [if_neg hp, or_iff_right hp]
    exact eq_comm

/-- The identity of the licence is right if the one of the customer does not replace it, or both are empty. -/
theorem id_iff (hcustomer : d.firstCustomer = some .id ∨ d.customer .id = "") :
    (if d.CustomerAfterId ∧ d.firstCustomer ≠ some .id then d.customer .id else d.id) = d.id ↔
      d.firstCustomer = some .id ∨ ¬ d.CustomerAfterId ∨ d.id = "" := by
  by_cases hfirst : d.firstCustomer = some .id
  · simp [hfirst]
  · by_cases hafter : d.CustomerAfterId
    · rw [if_pos ⟨hafter, hfirst⟩, hcustomer.resolve_left hfirst, or_iff_right hfirst,
        or_iff_right (not_not_intro hafter)]
      exact eq_comm
    · simp [hafter]

/-- The reader returns what a document describes exactly if the document is one that it recovers. -/
theorem loadFromFile_eq_iff :
    loadFromFile toDateTime (some d.tokens) = some (d.license toDateTime) ↔ d.Recovered := by
  rw [loadFromFile_tokens, foldl_children, Option.some.injEq, license, License.mk.injEq]
  rw [read_if_iff, read_if_iff, read_if_iff, read_if_iff, read_if_iff, read_if_iff]
  constructor
  · rintro ⟨-, hid, -, -, -, hversions, hhostid, hmac, hserial, hcustomerId, hname, hemail⟩
    refine ⟨List.map_eq_nil_iff.mp hversions.symm, fun r => ?_, fun c => ?_, (d.id_iff hcustomerId).mp hid⟩
    · cases r with
      | hostid => exact hhostid
      | mac => exact hmac
      | serial => exact hserial
    · cases c with
      | id => exact hcustomerId
      | name => exact hname
      | email => exact hemail
  · rintro ⟨hversions, hrequirement, hcustomer, hid⟩
    refine ⟨rfl, (d.id_iff (hcustomer .id)).mpr hid, rfl, rfl, ?_, ?_, hrequirement .hostid,
      hrequirement .mac, hrequirement .serial, hcustomer .id, hcustomer .name, hcustomer .email⟩
    · simp
    · rw [hversions, List.map_nil]

end Reading

/-- A licence for one version and one host, with a line break before every element. -/
def hostLicense : LicenseDocument where
  version := "1"
  id := "4711"
  createdOn := "2014-01-01T00:00:00"
  expiresOn := "*"
  versions := [("\n", "1.*")]
  requirement r := if r = .hostid then "server" else ""
  customer _ := ""
  order := [.id, .createdOn, .expiresOn, .validVersions, .requirements, .customer]
  order_perm := List.Perm.refl _
  requirementOrder := [.hostid, .mac, .serial]
  requirementOrder_perm := List.Perm.refl _
  customerOrder := [.id, .name, .email]
  customerOrder_perm := List.Perm.refl _
  space _ := "\n"
  requirementSpace _ := "\n"
  customerSpace _ := "\n"
  endSpace := "\n"
  versionsEndSpace := "\n"
  requirementsEndSpace := "\n"
  customerEndSpace := "\n"

/-- A licence that is restricted to a host and a version is read as one without requirements and versions. -/
theorem loadFromFile_hostLicense :
    (LicenseXmlReader.loadFromFile (fun text => text) (some hostLicense.tokens)).map
        (fun lic => (lic.requiredHostId, lic.validVersions)) = some ("", []) ∧
      LicenseXmlReader.loadFromFile (fun text => text) (some hostLicense.tokens) ≠
        some (hostLicense.license fun text => text) := by
  rw [loadFromFile_tokens]
  decide

end LicenseDocument

end Ts3Video
