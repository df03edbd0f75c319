/-
**Intents.**

An application declares explicit intents by name and generic ones, which every platform knows. An
intent finds its templates under its template key. A compiled intent is a configuration: its
utterances and the entities they refer to.
-/

import Phrasebook.Text.Blank

namespace Phrasebook

/-- The intents that do not depend on the application. -/
inductive GenericIntent where
  | invoke
  | endSession
  | unhandled
  | unanswered
  | yes
  | no
  | help
  | cancel
  | stop
  deriving DecidableEq, Repr

namespace GenericIntent

/-- All generic intents, in their order. -/
def all : List GenericIntent :=
  [invoke, endSession, unhandled, unanswered, yes, no, help, cancel, stop]

/-- The name that is shown. -/
def title : GenericIntent → String
  | invoke => "Invoke"
  | endSession => "EndSession"
  | unhandled => "Unhandled"
  | unanswered => "Unanswered"
  | yes => "Yes"
  | no => "No"
  | help => "Help"
  | cancel => "Cancel"
  | stop => "Stop"

/-- A text whose first character, if it is an ASCII capital, is in lower case. Only the titles of
generic intents are written so, which begin with such a capital. -/
def decapitalize (text : String) : String :=
  match text.toList with
  | [] => ""
  | first :: rest => String.ofList (first.toLower :: rest)

/-- The name as it is written in files. -/
def code (intent : GenericIntent) : String := decapitalize intent.title

/-- The key of the intent's templates. -/
def key (intent : GenericIntent) : String :=
  decapitalize (intent.title ++ "GenericIntent")

/-- Whether two texts differ at most in the case of ASCII letters. -/
def equalIgnoringCase (first second : List Char) : Bool :=
  first.map Char.toLower == second.map Char.toLower

/-- The generic intent of a name, in any case and with white space around it. -/
def ofName? (name : String) : Option GenericIntent :=
  all.find? fun intent => equalIgnoringCase intent.title.toList (Text.trim name.toList)

/-- The complaint about a name that is no generic intent. -/
def unknownMessage (name : String) : String := "Unknown generic intent '" ++ name ++ "'"

/-- The generic intent of a name, or the complaint about it. -/
def parse (name : String) : Except String GenericIntent :=
  match ofName? name with
  | some intent => .ok intent
  | none => .error (unknownMessage name)

end GenericIntent

/-- An intent that an application declares. -/
inductive Intent where
  | explicit (name : String)
  | generic (intent : GenericIntent)
  deriving DecidableEq, Repr

namespace Intent

/-- The name that is shown. -/
def title : Intent → String
  | explicit name => name
  | generic intent => intent.title

/-- The key of the intent's templates. -/
def key : Intent → String
  | explicit name => name ++ "Intent"
  | generic intent => intent.key

end Intent

/-- An intent compiled for a language. -/
structure Configuration where
  intent : Intent
  utterances : List String
  entities : List String
  deriving DecidableEq, Repr

/-- The configuration of an intent without templates. -/
def Configuration.bare (intent : Intent) : Configuration := ⟨intent, [], []⟩

end Phrasebook
