import MetricLayer.Generation.Prompt
import MetricLayer.Value.Basic

/-!
# Language model providers

`prepare` turns a prompt into what a provider does with it: the offline provider echoes it, the
others send a chat request, for which they need a key and their client library.  `complete` sends
the request through a `Service` and returns the text of the answer.
-/

namespace MetricLayer

open MetricLayer.Text

/-- The providers. -/
inductive Provider where
  | mock
  | openai
  | anthropic
deriving Repr, DecidableEq

namespace Provider

/-- All providers. -/
def all : List Provider :=
  [.mock, .openai, .anthropic]

/-- The name of a provider. -/
def name : Provider → String
  | .mock => "mock"
  | .openai => "openai"
  | .anthropic => "anthropic"

/-- The provider of a lower-case name. -/
def ofName? (s : String) : Option Provider :=
  all.find? fun p => p.name == s

theorem ofName?_name (p : Provider) : ofName? p.name = some p := by
  cases p <;> rfl

end Provider

/-- What a deployment configures.  The numbers are passed on to the providers as they are given. -/
structure ModelSettings where
  provider : String := "mock"
  openaiKey : String := ""
  anthropicKey : String := ""
  openaiModel : String := "gpt-4o-mini"
  anthropicModel : String := "claude-3-haiku-20240307"
  maxTokens : Value := .int 1000
  temperature : Value := .float (.zero false)
deriving Repr, Inhabited

/-- The key of a provider. -/
def ModelSettings.key (s : ModelSettings) : Provider → String
  | .mock => ""
  | .openai => s.openaiKey
  | .anthropic => s.anthropicKey

/-- The model of a provider. -/
def ModelSettings.model (s : ModelSettings) : Provider → String
  | .mock => ""
  | .openai => s.openaiModel
  | .anthropic => s.anthropicModel

/-- The provider that is meant: the given one, or else the configured one, in lower case. -/
def ModelSettings.providerName (s : ModelSettings) (given : Option String) : String :=
  within lower (match given with
    | none => s.provider
    | some name => if name = "" then s.provider else name)

/-- A message of a chat. -/
structure ChatMessage where
  role : String
  content : String
deriving Repr, DecidableEq

/-- A request to a provider.  The instructions are a message of their own or stand apart. -/
structure ChatRequest where
  key : String
  model : String
  instructions : Option String
  messages : List ChatMessage
  maxTokens : Value
  temperature : Value
deriving Repr

/-- The answer of a provider: one text, or blocks of which some are texts. -/
inductive ChatAnswer where
  | message (content : Option String)
  | blocks (texts : List (Option String))
deriving Repr, DecidableEq

/-- The text of an answer. -/
def ChatAnswer.text : ChatAnswer → String
  | .message content => content.getD ""
  | .blocks texts => joinWith "" (texts.map (·.getD ""))

/-- Why a provider does not answer. -/
inductive ProviderFault where
  | unknownProvider (name : String)
  | keyMissing (p : Provider)
  | clientMissing (p : Provider)
deriving Repr, DecidableEq

/-- The wording of a fault. -/
def ProviderFault.message : ProviderFault → String
  | .unknownProvider name =>
    "LLM provider '" ++ name ++ "' is not supported.  Choose from: " ++
      joinWith ", " (Provider.all.map Provider.name)
  | .keyMissing p =>
    let setting := p.name ++ "_api_key"
    setting ++ " is not set.  Set " ++ within upper setting ++ " in your .env file or environment."
  | .clientMissing p =>
    "The '" ++ p.name ++ "' package is not installed.  " ++
      "Run: pip install 'semantic-query-copilot[llm]'"

/-- The instructions that go with every prompt. -/
def chatInstructions : String :=
  "You are a DuckDB SQL expert. Answer with a single SELECT statement " ++
    "that uses only the columns and aggregations you are given."

/-- How much of a prompt the offline provider echoes. -/
def echoLength : Nat := 200

/-- What a provider does with a prompt. -/
inductive Completion where
  | echo (text : String)
  | send (p : Provider) (r : ChatRequest)
deriving Repr

/-- The client libraries that are installed, and how the providers answer. -/
structure Service where
  installed : Provider → Bool
  answer : Provider → ChatRequest → ChatAnswer

/-- Without client libraries. -/
def Service.offline : Service where
  installed := fun _ => false
  answer := fun _ _ => .message none

namespace ModelSettings

/-- The request of a provider for a prompt. -/
def request (s : ModelSettings) (p : Provider) (prompt : String) : ChatRequest :=
  let apart := p == .anthropic
  { key := s.key p
    model := s.model p
    instructions := if apart then some chatInstructions else none
    messages := (if apart then [] else [⟨"system", chatInstructions⟩]) ++ [⟨"user", prompt⟩]
    maxTokens := s.maxTokens
    temperature := s.temperature }

/-- What the provider does with a prompt. -/
def prepare (s : ModelSettings) (service : Service) (prompt : String) (given : Option String) :
    Except ProviderFault Completion :=
  let name := s.providerName given
  match Provider.ofName? name with
  | none => .error (.unknownProvider name)
  | some .mock => .ok (.echo ("[MOCK] " ++ String.ofList (prompt.toList.take echoLength)))
  | some p =>
    if s.key p = "" then .error (.keyMissing p)
    else if service.installed p then .ok (.send p (s.request p prompt))
    else .error (.clientMissing p)

/-- The text a provider answers a prompt with. -/
def complete (s : ModelSettings) (service : Service) (prompt : String) (given : Option String) :
    Except ProviderFault String :=
  (s.prepare service prompt given).map fun
    | .echo text => text
    | .send p r => (service.answer p r).text

end ModelSettings

/-- A provider is asked with the catalog, unless the prompt is a retry. -/
def modelPrompt (c : Catalog) (prompt : String) : String :=
  if occurs Prompt.requestMark.toList prompt.toList then prompt else Prompt.generation c prompt

/-- The generator a deployment uses: plans by keyword offline, or a provider. -/
inductive GeneratorChoice where
  | keyword
  | model (provider : String)
deriving Repr, DecidableEq

/-- The generator of a deployment. -/
def ModelSettings.generatorChoice (s : ModelSettings) (given : Option String) : GeneratorChoice :=
  let name := s.providerName given
  if name = Provider.mock.name then .keyword else .model name

end MetricLayer
