import Reckoner.Rpc.Exchange
import Reckoner.Text.Blank
import Reckoner.Text.Hex
import Reckoner.Text.Utf8

/-!
# Exchanges as bytes

What is sent over a connection that serves one request, and what has come back when the other side
has closed it. A body is as long as its header says, or comes in chunks with their lengths in
front, or else goes on to the end. An answer that is cut short counts as none.
-/

namespace Reckoner.Rpc

/-- The line break of a head. -/
def lineBreak : List UInt8 := [13, 10]

/-- The bytes of a request to a host. -/
def Post.toBytes (post : Post) (host : String) : List UInt8 :=
  let head := [post.line, "host: " ++ host, "user-agent: " ++ userAgent,
    "content-type: " ++ contentType, "content-length: " ++ toString post.body.length,
    "connection: close", ""]
  head.flatMap (fun line => Text.toBytes line ++ lineBreak) ++ post.body

/-- The bytes up to the first line break, and those behind it. -/
def splitLine? : List UInt8 → Option (List UInt8 × List UInt8)
  | 13 :: 10 :: rest => some ([], rest)
  | byte :: rest => (splitLine? rest).map fun (line, behind) => (byte :: line, behind)
  | [] => none

/-- A line goes on from where it ends. -/
theorem splitLine?_length_lt {bytes line behind : List UInt8}
    (h : splitLine? bytes = some (line, behind)) : behind.length < bytes.length := by
  fun_induction splitLine? bytes generalizing line with
  | case1 rest =>
    simp only [Option.some.injEq, Prod.mk.injEq] at h
    simp only [← h.2, List.length_cons]
    omega
  | case2 byte rest _ ih =>
    obtain ⟨⟨front, back⟩, hs, he⟩ := Option.map_eq_some_iff.mp h
    simp only [Prod.mk.injEq] at he
    obtain ⟨-, rfl⟩ := he
    exact Nat.lt_succ_of_lt (ih hs)
  | case3 => simp_all

/-- The lines of a head up to the empty one, and the bytes behind that. -/
def splitHead? (bytes : List UInt8) : Option (List String × List UInt8) :=
  match h : splitLine? bytes with
  | none => none
  | some ([], behind) => some ([], behind)
  | some (line, behind) =>
    have := splitLine?_length_lt h
    (splitHead? behind).map fun (lines, body) => (Text.ofBytes line :: lines, body)
termination_by bytes.length

/-- The value of a header among the lines of a head; names are read in any case. -/
def headerValue? (lines : List String) (name : String) : Option String :=
  lines.findSome? fun line =>
    let front := line.toList.takeWhile (· != ':')
    if (String.ofList front).toLower = name then
      some (Text.trim (String.ofList (line.toList.drop (front.length + 1))))
    else none

/-- The status in the first line of an answer. -/
def statusOf? (line : String) : Option Nat := (line.splitOn " ")[1]?.bind String.toNat?

/-- The body that comes in chunks; an empty chunk ends it. -/
def joinChunks? (bytes : List UInt8) : Option (List UInt8) :=
  match h : splitLine? bytes with
  | none => none
  | some (line, behind) =>
    have := splitLine?_length_lt h
    match Text.hexNumber? ((Text.ofBytes line).toList.takeWhile (· != ';')) with
    | none => none
    | some 0 => some []
    | some count =>
      if count + 2 ≤ behind.length then
        (joinChunks? (behind.drop (count + 2))).map (behind.take count ++ ·)
      else none
termination_by bytes.length
decreasing_by simp only [List.length_drop]; omega

/-- The body of an answer, from the lines of its head and the bytes behind it. -/
def bodyOf? (lines : List String) (bytes : List UInt8) : Option (List UInt8) :=
  match headerValue? lines "transfer-encoding", headerValue? lines "content-length" with
  | some _, _ => joinChunks? bytes
  | none, some length => do
    let count ← length.toNat?
    if count ≤ bytes.length then some (bytes.take count) else none
  | none, none => some bytes

/-- What has come back over a connection until it was closed. -/
def Outcome.ofBytes (bytes : List UInt8) : Outcome :=
  let answer := do
    let (lines, behind) ← splitHead? bytes
    let status ← lines.head?.bind statusOf?
    let body ← if isBodiless status || isProvisional status then some [] else bodyOf? lines behind
    return answered status body
  answer.getD closed

end Reckoner.Rpc
