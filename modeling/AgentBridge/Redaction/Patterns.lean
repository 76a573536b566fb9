import AgentBridge.Paths
import AgentBridge.Systems.Matching

/-!
# The redaction patterns

The patterns of `redaction.js`, under the order in which they are applied, and
`redactSensitiveText`. A character is one UTF-16 unit, so that the bounds count as in the
source. None of the flags "i" is joined by "u": without regard to case means the ASCII
letters.
-/

namespace AgentBridge.Redaction

open Paths Systems

abbrev Text := List Char

/-! ## Classes -/

/-- `[A-Za-z0-9…]` -/
def alphanumeric (others : List Char) (c : Char) : Bool := c.isAlphanum || others.contains c

/-- `[A-Z0-9]` -/
def upperOrDigit (c : Char) : Bool := c.isUpper || c.isDigit

/-- `[^\s…]` -/
def nonSpaceBut (others : List Char) (c : Char) : Bool :=
  !isWhitespace c && !others.contains c

def oneOf (members : List Char) (c : Char) : Bool := members.contains c

def notIn (members : List Char) (c : Char) : Bool := !members.contains c

def letter (c : Char) : Bool := c.isAlpha

def bearerCharacters : List Char := ['.', '_', '~', '+', '/', '-']

def schemeCharacters : List Char := ['+', '.', '-']

def dashes : List Char := ['_', '-']

def dottedDashes : List Char := ['.', '_', '-']

def base64 : List Char := ['+', '/']

def paddedBase64 : List Char := ['+', '/', '=']

def quotes : List Char := ['\x22', '\x27']

def blanks : List Char := [' ', '\t']

/-- What an unquoted value has none of. -/
def unquotedEnds : List Char :=
  ['\x22', '\x27', '#', '(', ')', '\x7b', '\x7d', '[', ']', '.', '$', ',', ';']

section

open Pattern

/-! ## Pieces that several patterns share -/

def lit (text : String) : Pattern := literal text.toList

def litIgnoringCase (text : String) : Pattern := literalIgnoringCase text.toList

def spaces : Pattern := many (.char isWhitespace)

/-- `(?![…])` -/
def notFollowedBy (accepts : Char → Bool) : Pattern := .notAhead (.char accepts)

/-- `\s*[:=]\s*` -/
def assignment : Pattern := sequence [spaces, .char (oneOf [':', '=']), spaces]

/-- `first[-_]?second` -/
def joined (first second : String) : Pattern :=
  sequence [litIgnoringCase first, optional (.char (oneOf dashes)), litIgnoringCase second]

/-- `first_?second` -/
def underscored (first second : String) : Pattern :=
  sequence [litIgnoringCase first, optional (.char (oneOf ['_'])), litIgnoringCase second]

/-- `(?=[…]{0,256}[0-9])(?=[…]{0,256}[A-Za-z])` -/
def digitAndLetterAhead (accepts : Char → Bool) : Pattern :=
  .seq (.ahead (.seq (between 0 256 (.char accepts)) (.char Char.isDigit)))
    (.ahead (.seq (between 0 256 (.char accepts)) (.char letter)))

/-- `first[class]{least,most}` between characters that are not of the class `around`. -/
def tokenShape (around : Char → Bool) (first : Pattern) (accepts : Char → Bool)
    (least most : Nat) : Pattern :=
  sequence [.notBehind around, first, between least most (.char accepts), notFollowedBy around]

/-- `\bfirst[class]{least,}` -/
def tokenStart (first : Pattern) (accepts : Char → Bool) (least : Nat) : Pattern :=
  sequence [.wordBoundary, first, .atLeast least (.char accepts)]

/-- `gh[pousr]_|github_pat_` -/
def githubPrefix : Pattern :=
  .alt (sequence [lit "gh", .char (oneOf ['p', 'o', 'u', 's', 'r']), lit "_"]) (lit "github_pat_")

/-! ## `LIKELY_SECRET_PATTERNS` -/

def privateKeyHeader : Pattern :=
  sequence [lit "-----BEGIN ", between 0 40 (.char fun c => c.isUpper || c == ' '),
    lit "PRIVATE KEY-----"]

def likelySecretPatterns : List Pattern :=
  [privateKeyHeader,
   sequence [.wordBoundary, lit "Bearer", some1 (.char isWhitespace),
     between 20 4096 (.char (alphanumeric bearerCharacters)), many (lit "=")],
   sequence [.wordBoundary, lit "Basic", some1 (.char isWhitespace),
     .ahead (.seq (between 0 512 (.char (alphanumeric base64))) (.char Char.isDigit)),
     between 12 4096 (.char (alphanumeric base64)), between 0 2 (lit "="),
     notFollowedBy (alphanumeric paddedBase64)],
   .seq (.notBehind (alphanumeric dottedDashes))
     (.alt (.seq (lit "ya29.") (between 20 4096 (.char (alphanumeric dottedDashes))))
       (.seq (lit "1//0") (between 20 4096 (.char (alphanumeric dottedDashes))))),
   sequence [.notBehind (alphanumeric dashes), lit "eyJ",
     between 8 4096 (.char (alphanumeric dashes)), lit ".",
     between 8 4096 (.char (alphanumeric dashes)), lit ".",
     between 8 4096 (.char (alphanumeric dashes)), notFollowedBy (alphanumeric dashes)],
   sequence [.notBehind (alphanumeric dashes), choice [lit "sk", lit "rk", lit "pk"], lit "-",
     .ahead (.seq (between 0 256 (.char (alphanumeric dashes))) (.char Char.isDigit)),
     between 20 256 (.char (alphanumeric dashes)), notFollowedBy (alphanumeric dashes)],
   sequence [.notBehind (alphanumeric ['_']), choice [lit "sk", lit "rk", lit "pk"], lit "_",
     .alt (lit "live") (lit "test"), lit "_", between 16 256 (.char (alphanumeric [])),
     notFollowedBy (alphanumeric [])],
   tokenShape (alphanumeric ['-'])
     (sequence [lit "xox", .char (oneOf ['b', 'a', 'p', 'r', 's']), lit "-"])
     (alphanumeric ['-']) 10 512,
   tokenShape (alphanumeric ['_']) githubPrefix (alphanumeric ['_']) 20 512,
   sequence [.notBehind (alphanumeric ['_']), lit "npm_", exactly 36 (.char (alphanumeric [])),
     notFollowedBy (alphanumeric [])],
   tokenShape (alphanumeric dashes) (lit "AIza") (alphanumeric dashes) 30 512,
   sequence [.notBehind upperOrDigit, lit "AKIA", exactly 16 (.char upperOrDigit),
     notFollowedBy upperOrDigit],
   tokenShape (alphanumeric dashes) (lit "glpat-") (alphanumeric dashes) 20 256,
   tokenShape (alphanumeric ['_']) (lit "hf_") (alphanumeric []) 30 256,
   tokenShape (alphanumeric dashes) (lit "GOCSPX-") (alphanumeric dashes) 20 256,
   tokenShape (alphanumeric ['-']) (lit "xapp-") (alphanumeric ['-']) 10 512,
   tokenShape (alphanumeric dashes)
     (sequence [lit "SG.", between 16 256 (.char (alphanumeric dashes)), lit "."])
     (alphanumeric dashes) 16 256,
   tokenShape (alphanumeric dashes) (lit "pypi-AgEI") (alphanumeric dashes) 20 4096,
   sequence [.notBehind (alphanumeric []),
     .alt (litIgnoringCase "accountkey") (litIgnoringCase "sharedaccesskey"), lit "=",
     between 40 1024 (.char (alphanumeric base64)), between 0 2 (lit "="),
     notFollowedBy (alphanumeric paddedBase64)],
   sequence [lit "https://hooks.slack.com/services/T", between 1 64 (.char upperOrDigit), lit "/B",
     between 1 64 (.char upperOrDigit), lit "/", between 16 256 (.char (alphanumeric []))],
   sequence [.wordBoundary, .char letter, between 0 30 (.char (alphanumeric schemeCharacters)),
     lit "://", between 1 256 (.char (nonSpaceBut [':', '/', '@'])), lit ":",
     .ahead (.seq (between 0 256 (.char (nonSpaceBut ['/', '@']))) (.char Char.isDigit)),
     between 6 256 (.char (nonSpaceBut ['/', '@'])), lit "@"],
   sequence [.notBehind (alphanumeric []),
     choice [litIgnoringCase "authorization", joined "api" "key", joined "access" "token",
       joined "refresh" "token", joined "id" "token", joined "auth" "token",
       litIgnoringCase "password", litIgnoringCase "passwd", litIgnoringCase "secret",
       joined "client" "secret", litIgnoringCase "credential", joined "account" "key",
       sequence [joined "shared" "access", optional (.char (oneOf dashes)), litIgnoringCase "key"]],
     optional (.char (oneOf quotes)), assignment, .group 1 (.char (oneOf quotes)),
     digitAndLetterAhead (nonSpaceBut quotes), between 8 256 (.char (nonSpaceBut quotes)),
     .reference 1],
   sequence [.alt (.seq .lineStart (optional (lit "+"))) (.char isWhitespace),
     optional (.seq (litIgnoringCase "export") (some1 (.char isWhitespace))),
     between 0 40 (.char (alphanumeric ['_'])),
     choice [litIgnoringCase "password", litIgnoringCase "passwd", litIgnoringCase "secret",
       underscored "api" "key", underscored "access" "key", underscored "private" "key",
       underscored "auth" "token", underscored "access" "token", underscored "refresh" "token",
       litIgnoringCase "credential"],
     between 0 40 (.char (alphanumeric ['_'])), assignment,
     digitAndLetterAhead (nonSpaceBut ['\x22', '\x27', '#']),
     between 8 256 (.char (nonSpaceBut unquotedEnds)), many (.char (oneOf blanks)),
     optional (.seq (lit ";") (many (.char (oneOf blanks)))),
     optional (.seq (lit "#") (between 0 256 (.char fun c => !isLineTerminator c))), .lineEnd]]

/-! ## `BROAD_LOG_REDACTIONS` -/

def verbatim (text : String) : Replacement := .verbatim text.toList

def broadLogRedactions : List (Pattern × List Replacement) :=
  [(sequence [.wordBoundary,
      .group 1 (.alt (litIgnoringCase "bearer") (litIgnoringCase "basic")),
      some1 (.char isWhitespace), some1 (.char (alphanumeric bearerCharacters)), many (lit "=")],
     [.group 1, verbatim " [redacted]"]),
   (sequence [.wordBoundary,
      .alt (.seq (lit "ya29.") (some1 (.char (alphanumeric dottedDashes))))
        (.seq (lit "1//") (some1 (.char (alphanumeric dottedDashes)))), .wordBoundary],
     [verbatim "[oauth token redacted]"]),
   (sequence [.notBehind (alphanumeric dashes), lit "eyJ",
      between 1 8192 (.char (alphanumeric dashes)), lit ".",
      between 1 8192 (.char (alphanumeric dashes)), lit ".",
      between 1 8192 (.char (alphanumeric dashes))],
     [verbatim "[jwt redacted]"]),
   (sequence [.wordBoundary,
      choice [litIgnoringCase "sk", litIgnoringCase "rk", litIgnoringCase "pk",
        .seq (litIgnoringCase "xox") (.char fun c => oneOf ['b', 'a', 'p', 'r', 's'] c.toLower)],
      lit "-", .atLeast 12 (.char (alphanumeric dashes)), .wordBoundary],
     [verbatim "[credential redacted]"]),
   (.seq (tokenStart githubPrefix (alphanumeric dashes) 12) .wordBoundary,
     [verbatim "[github credential redacted]"]),
   (.seq (tokenStart (lit "AIza") (alphanumeric dashes) 20) .wordBoundary,
     [verbatim "[google api key redacted]"]),
   (tokenStart (lit "glpat-") (alphanumeric dashes) 20, [verbatim "[gitlab token redacted]"]),
   (tokenStart (lit "hf_") (alphanumeric []) 30, [verbatim "[hugging face token redacted]"]),
   (tokenStart (lit "GOCSPX-") (alphanumeric dashes) 20,
     [verbatim "[google oauth client secret redacted]"]),
   (tokenStart (lit "xapp-") (alphanumeric ['-']) 10, [verbatim "[slack app token redacted]"]),
   (tokenStart (sequence [lit "SG.", .atLeast 16 (.char (alphanumeric dashes)), lit "."])
      (alphanumeric dashes) 16,
     [verbatim "[sendgrid key redacted]"]),
   (tokenStart (lit "pypi-AgEI") (alphanumeric dashes) 20, [verbatim "[pypi token redacted]"]),
   (sequence [.wordBoundary,
      .group 1 (sequence [.char letter, between 0 30 (.char (alphanumeric schemeCharacters)),
        lit "://", between 1 256 (.char (nonSpaceBut [':', '/', '@'])), lit ":"]),
      between 1 256 (.char (nonSpaceBut ['/', '@'])), lit "@"],
     [.group 1, verbatim "[redacted]@"]),
   (sequence
      [.group 1 (sequence [optional (.char (oneOf quotes)),
        choice [litIgnoringCase "authorization", litIgnoringCase "proxy-authorization",
          litIgnoringCase "cookie", litIgnoringCase "set-cookie", joined "api" "key",
          joined "access" "token", joined "refresh" "token", joined "id" "token",
          litIgnoringCase "password", litIgnoringCase "passwd", litIgnoringCase "secret",
          joined "client" "secret", litIgnoringCase "credential", litIgnoringCase "accountkey",
          litIgnoringCase "sharedaccesskey", litIgnoringCase "contractorauthorizationtoken"],
        optional (.char (oneOf quotes)), assignment]),
      choice [sequence [lit "\"", many (.char (notIn ['\x22'])), lit "\""],
        sequence [lit "'", many (.char (notIn ['\x27'])), lit "'"],
        some1 (.char (nonSpaceBut [',', ';', '\x7d']))]],
     [.group 1, verbatim "[redacted]"]),
   (.seq (.group 1 (sequence [.char (oneOf ['?', '&']),
        choice [litIgnoringCase "access_token", litIgnoringCase "refresh_token",
          litIgnoringCase "id_token", litIgnoringCase "api_key", litIgnoringCase "key",
          litIgnoringCase "code", litIgnoringCase "client_secret"], lit "="]))
      (some1 (.char (nonSpaceBut ['&', '#']))),
     [.group 1, verbatim "[redacted]"])]

/-! ## Private key blocks -/

def keyMarker (marker : String) : Pattern :=
  sequence [litIgnoringCase marker, between 0 40 (.char fun c => c.isAlpha || c == ' '),
    litIgnoringCase "private key-----"]

def pemBodyGap : Pattern :=
  many (.alt (.char (oneOf [' ', '\t', '\r', '\n']))
    (.seq (between 1 8 (lit "\\")) (.char (oneOf ['r', 'n']))))

def pemBodyRun : Pattern := .atLeast 16 (.char (alphanumeric paddedBase64))

end

/-- `pemBodyEnd`: every turn takes at least one character. -/
def pemBodyEnd : Nat → Cursor → Cursor
  | 0, cursor => cursor
  | fuel + 1, cursor =>
    match (pemBodyGap.matchAt cursor).bind pemBodyRun.matchAt with
    | some finish => pemBodyEnd fuel finish
    | none => cursor

/-- The loop of `redactPrivateKeyBlocks` from a position on. -/
def redactKeyBlocksFrom : Nat → Bool → List Char → Text → Text
  | 0, _, _, rest => rest
  | fuel + 1, endSearchExhausted, before, rest =>
    match (keyMarker "-----begin ").search before rest with
    | none => rest
    | some (start, marker) =>
      let blockEnd := if endSearchExhausted then none
        else (keyMarker "-----end ").search marker.before marker.rest
      let finish := match blockEnd with
        | some (_, finish) => finish
        | none => pemBodyEnd (marker.rest.length + 1) marker
      rest.take (rest.length - start.rest.length) ++ "[private key redacted]".toList
        ++ redactKeyBlocksFrom fuel (endSearchExhausted || blockEnd.isNone)
            finish.before finish.rest

def redactPrivateKeyBlocks (text : Text) : Text :=
  redactKeyBlocksFrom (text.length + 1) false [] text

def redactSensitiveText (value : Text) : Text :=
  let text := redactPrivateKeyBlocks value
  let text := broadLogRedactions.foldl
    (fun text redaction => redaction.1.replaceAll redaction.2 text) text
  likelySecretPatterns.foldl
    (fun text pattern => pattern.replaceAll [verbatim "[credential redacted]"] text) text

example : redactSensitiveText "pytest -k basic tests".toList =
    "pytest -k basic [redacted]".toList := by decide

end AgentBridge.Redaction
