import Opale.AgentGo.Strings
import Mathlib.Algebra.Group.Nat.Defs
import Mathlib.Tactic.Common

namespace Opale.Laps

/-- State of a local account as seen before the rotation. -/
structure LapsAccount where
  exist : Bool
  sid : String
  description : String
  deriving Repr, DecidableEq

/-- `unicode.ToLower`, as far as its value can be an ASCII character. -/
def toLowerRune (c : Char) : Char :=
  if c = '\u0130' then 'i' else if c = '\u212a' then 'k' else c.toLower

/-- `unicode.ToUpper`, as far as its value can be an ASCII character. -/
def toUpperRune (c : Char) : Char :=
  if c = '\u0131' then 'I' else if c = '\u017f' then 'S' else c.toUpper

/-- One representative for each class of `unicode.SimpleFold` that has an ASCII member. -/
def foldRune (c : Char) : Char :=
  if c = '\u212a' then 'k' else if c = '\u017f' then 's' else c.toLower

def trimSpace (s : String) : String := String.ofList (AgentGo.trimSpace s.toList)

def toLower (s : String) : String := String.ofList (s.toList.map toLowerRune)

def equalFold (s t : String) : Bool := s.toList.map foldRune == t.toList.map foldRune

/-- `branding.LAPSAccountDescription`. -/
def lapsAccountDescription : String := "Opale recovery account (LAPS-rotated)"

def bannedUsernames : List String := ["administrator", "administrateur", "admin", "root", "system"]

def checkLAPSUsernameAllowed (username : String) : Except String Unit :=
  if toLower (trimSpace username) ∈ bannedUsernames then
    .error s!"username interdit (compte sensible) : {username}"
  else .ok ()

/-- `strconv.ParseUint(digits, 10, 32)`. -/
def parseUint32 (digits : List Char) : Option Nat :=
  if digits.isEmpty || !digits.all Char.isDigit then none
  else
    let n := digits.foldl (fun acc c => acc * 10 + (c.toNat - '0'.toNat)) 0
    if n < 2 ^ 32 then some n else none

/-- RID of the SID of a local account (S-1-5-21-x-y-z-RID). -/
def localAccountRID (sid : String) : Option Nat :=
  if "S-1-5-21-".toList.isPrefixOf (sid.toList.map toUpperRune) then
    parseUint32 (sid.toList.reverse.takeWhile (· ≠ '-')).reverse
  else none

/-- The agent rotates only an account it has created itself. -/
def checkLAPSAccountManageable (username : String) (acct : LapsAccount) (managedSIDs : List String) :
    Except String Unit := do
  checkLAPSUsernameAllowed username
  if !acct.exist then .ok ()
  else match localAccountRID acct.sid with
    | none => .error s!"SID inattendu pour un compte local : {acct.sid.quote}"
    | some rid =>
      if rid < 1000 then
        .error s!"compte intégré Windows (RID {rid}) : jamais géré par la LAPS"
      else if managedSIDs.any (equalFold · acct.sid) then .ok ()
      else
        let want := trimSpace lapsAccountDescription
        if want ≠ "" ∧ trimSpace acct.description = want then .ok ()
        else
          .error s!"compte existant non créé par l'agent (description {acct.description.quote}) : refusé"

end Opale.Laps
