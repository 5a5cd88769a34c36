import DocumentHost.CommandLine.Arguments

/-!
# Explanations of the command line

What the host says about its commands and their options.
-/

namespace DocumentHost.CommandLine

/-- Lines as one text, each with its end. -/
def lines (texts : List String) : String :=
  String.join (texts.map (· ++ "\n"))

/-- The explanation of a topic. -/
def Topic.text : Topic → String
  | .host => lines [
      "Host for multi-language executable documents",
      "",
      "Usage: tessera-cli [OPTIONS] <COMMAND>",
      "",
      "Commands:",
      "  run          Execute a document and write its output to stdout",
      "  segments     Show the optimised segments of a document",
      "  list         List every document under the root",
      "  init-config  Write a default configuration file into the root",
      "  help         Print this message or the help of the given subcommand(s)",
      "",
      "Options:",
      "  -r, --root <ROOT>      Root directory documents are resolved against [default: .]",
      "  -c, --config <CONFIG>  Configuration file (default: <root>/tessera.json if present)",
      "  -h, --help             Print help"]
  | .run => lines [
      "Execute a document and write its output to stdout",
      "",
      "Usage: tessera-cli run [OPTIONS] <NAME> [ARGS]...",
      "",
      "Arguments:",
      "  <NAME>     Document name relative to the root",
      "  [ARGS]...  Entry point arguments; JSON values, otherwise plain strings",
      "",
      "Options:",
      "      --parser <PARSER>            Parser to use (program, text, scriptlets)",
      "      --default-tag <DEFAULT_TAG>  Language for untagged program text",
      "      --enter <ENTER>              " ++
        "Make the document enterable and invoke this entry point",
      "  -h, --help                       Print help"]
  | .segments => lines [
      "Show the optimised segments of a document",
      "",
      "Usage: tessera-cli segments [OPTIONS] <NAME>",
      "",
      "Arguments:",
      "  <NAME>  Document name relative to the root",
      "",
      "Options:",
      "      --parser <PARSER>  Parser to use (program, text, scriptlets)",
      "  -h, --help             Print help"]
  | .list => lines [
      "List every document under the root",
      "",
      "Usage: tessera-cli list",
      "",
      "Options:",
      "  -h, --help  Print help"]
  | .initConfig => lines [
      "Write a default configuration file into the root",
      "",
      "Usage: tessera-cli init-config [OPTIONS]",
      "",
      "Options:",
      "      --force  Overwrite an existing file",
      "  -h, --help   Print help"]
  | .help => lines [
      "Print this message or the help of the given subcommand(s)",
      "",
      "Usage: tessera-cli help [COMMAND]...",
      "",
      "Arguments:",
      "  [COMMAND]...  Print help for the subcommand(s)"]

end DocumentHost.CommandLine
