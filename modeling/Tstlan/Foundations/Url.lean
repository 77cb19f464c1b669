import Tstlan.Foundations.Struct

/-! # Paths and URLs

The segments of a path, and the scheme and netloc that `urllib.parse.urlsplit` finds in a URL. -/
namespace Foundations
namespace Url
set_option autoImplicit false

/-- What stands between the slashes. -/
def splitSegments : List Char → List (List Char)
  | [] => [[]]
  | c :: cs =>
    if c = '/' then [] :: splitSegments cs
    else
      match splitSegments cs with
      | [] => [[c]]
      | s :: ss => (c :: s) :: ss

def segments (path : String) : List String := (splitSegments path.toList).map String.ofList

structure SplitResult where
  scheme : String
  netloc : String
  deriving DecidableEq, Repr

def schemeChar (c : Char) : Bool := c.isAlpha || c.isDigit || c ∈ ['+', '-', '.']

/-- The scheme in lower case, and the rest of the URL. -/
def splitScheme (url : List Char) : List Char × List Char :=
  let scheme := url.takeWhile (· ≠ ':')
  match url.drop scheme.length with
  | [] => ([], url)
  | _ :: rest =>
    match scheme with
    | [] => ([], url)
    | c :: _ => if c.isAlpha ∧ scheme.all schemeChar then (scheme.map Char.toLower, rest) else ([], url)

def splitNetloc : List Char → List Char
  | '/' :: '/' :: rest => rest.takeWhile (fun c => c ∉ ['/', '?', '#'])
  | _ => []

/-- `urlsplit`; `allowed` are the netlocs that pass its checks of bracketed hosts and of characters whose
compatibility form is a delimiter. -/
def urlsplit (allowed : String → Bool) (url : String) : Except PyError SplitResult :=
  -- control characters and blanks in front, then tabs and line breaks anywhere
  let url := (url.toList.dropWhile (· ≤ ' ')).filter (fun c => c ∉ ['\t', '\r', '\n'])
  let (scheme, rest) := splitScheme url
  let netloc := splitNetloc rest
  if ('[' ∈ netloc) ≠ (']' ∈ netloc) ∨ allowed (String.ofList netloc) = false then .error .valueError
  else .ok ⟨String.ofList scheme, String.ofList netloc⟩

example : urlsplit (fun _ => true) "HTTP://app.test:80/configs?x=1" = .ok ⟨"http", "app.test:80"⟩ := by decide

end Url
end Foundations
