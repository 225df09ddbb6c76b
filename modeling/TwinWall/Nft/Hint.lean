import TwinWall.Text.Search

/-! Hints for the operator, chosen by words in a report. The first fitting entry of the table gives the
hint, and a report that fits none is repeated. -/
namespace TwinWall
namespace Nft

structure Hint where
  message : String
  suggestions : List String := []
  url : Option String := none
deriving DecidableEq, Repr

/-- A hint for reports with all words of one of some lists. -/
structure HintRule where
  words : List (List String)
  hint : Hint

def HintRule.fits (r : HintRule) (report : String) : Bool :=
  r.words.any fun l => l.all (Text.containsFolded report)

namespace Hint

def wiki (page : String) : Option String :=
  some ("https://wiki.nftables.org/wiki-nftables/index.php/" ++ page)

def table : List HintRule :=
  [{ words := [["cannot open network namespace"]]
     hint :=
      { message := "Network namespace does not exist on this node"
        suggestions :=
          ["List namespaces on the node: ip netns list",
            "Create the namespace before building its firewall"]
        url := some "https://man7.org/linux/man-pages/man8/ip-netns.8.html" } },
    { words := [["permission denied"], ["operation not permitted"]]
      hint :=
      { message := "Insufficient permissions to modify firewall rules"
        suggestions :=
          ["The remote user needs root or CAP_NET_ADMIN inside the namespace",
            "Check the ssh_user setting in the podfw config"]
        url := wiki "Quick_reference-nftables_in_10_minutes" } },
    { words := [["no such file"], ["command not found"]]
      hint :=
      { message := "nftables or the staged config is missing on this node"
        suggestions :=
          ["Install nftables on the node: apt install nftables",
            "Check that the temp_dir setting points at a writable directory"]
        url := wiki "Main_Page" } },
    { words := [["could not process rule"], ["syntax error"]]
      hint :=
      { message := "Invalid firewall rule syntax"
        suggestions :=
          ["Render the document locally with `podfw render` and inspect the failing line",
            "Verify port numbers are between 1 and 65535",
            "Ensure IP addresses and network masks are valid"]
        url := wiki "Simple_rule_management" } },
    { words := [["table", "does not exist"]]
      hint :=
      { message := "Firewall table does not exist"
        suggestions :=
          ["The table may have been scrubbed already", "Run a build to create the table"]
        url := wiki "Configuring_tables" } },
    { words := [["set", "does not exist"]]
      hint :=
      { message := "Referenced set is not declared in the table"
        suggestions := ["Every @name used by a rule must be supplied in the sets list"] } },
    { words := [["interval", "overlap"]]
      hint :=
      { message := "Set elements overlap"
        suggestions :=
          ["Remove elements already covered by a wider network or port range"] } },
    { words := [["resource busy"], ["device or resource busy"]]
      hint :=
      { message := "Firewall resource is busy"
        suggestions :=
          ["Another process may be modifying the same table",
            "Wait a moment and retry the build"] } },
    { words := [["netlink"]]
      hint :=
      { message := "Communication error with kernel netlink interface"
        suggestions :=
          ["Check kernel modules on the node: lsmod | grep nf_tables",
            "Load nf_tables module: modprobe nf_tables"]
        url := wiki "Troubleshooting" } }]

def fallback (report : String) : Hint :=
  { message := "Firewall error: " ++ report
    suggestions := ["Check the detailed error output above"]
    url := wiki "Troubleshooting" }

def ofReport (report : String) : Hint :=
  match table.find? (·.fits report) with
  | some r => r.hint
  | none => fallback report

end Hint
end Nft
end TwinWall
